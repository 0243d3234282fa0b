import ShadowSocketProxy.HostProxy.Entries
import ShadowSocketProxy.Interleaving.Automaton
import Mathlib.Algebra.Order.BigOperators.Group.Finset

/-! # Who stops an association

An association is stopped by whoever it was handed to: it was taken out of the table, replaced there, or
not let in. It is published once, so that it is handed over at most once, and not at all when its own
relay takes the entry out. Whether a call of `stop_association` sees the completion of the relay then
depends on who was there when the relay sent it. -/

namespace ShadowSocketProxy.HostProxy

open Interleaving Interleaving.Program Bpf

/-! ## Handing over -/

/-- Answers of the operations of the tasks. -/
abbrev UdpAnswer : Type := Answer UdpOp UdpOp.Resp

/-- Whether an answer hands an association over to be stopped: `forward`, `invalidate` and `shutdown` take
it out of the table, and `insert_association` replaces it there or does not let it in. -/
def hands (id : Nat) : UdpAnswer → Bool
  | ⟨.removeEntry _, old⟩ => old = some id
  | ⟨.removeIf _ id', removed⟩ => removed && id' == id
  | ⟨.drain, associations⟩ => associations.contains id
  | ⟨.publish candidate, .existing _⟩ => candidate == id
  | ⟨.publish _, .inserted previous⟩ => previous = some id
  | _ => false

/-- Whether an answer is one of the first operation of `stop_association`. -/
def begins (id : Nat) : UdpAnswer → Bool
  | ⟨.subscribe id', _⟩ => id' == id
  | _ => false

/-- Whether an answer is one of the last operation of `stop_association`. -/
def ends (id : Nat) : UdpAnswer → Bool
  | ⟨.unsubscribe id', _⟩ => id' == id
  | _ => false

/-- A thread is in charge of an association: it was handed the association and has not called
`stop_association` yet, or it is inside that call. -/
def InCharge (id : Nat) (w : UdpWorld) (i : Nat) : Prop :=
  (w.answers i).countP (begins id) < (w.answers i).countP (hands id) ∨
    (w.answers i).countP (ends id) < (w.answers i).countP (begins id)

/-- The relay of an association finds its own entry in the critical section of `finish_udp_relay`. -/
def FindsOwn (id : Nat) (e : UdpEvent) : Prop :=
  e.op = .relay id ∧ ∃ a, e.before.associations[id]? = some a ∧ a.relay = .stopping ∧
    e.before.entries.find? a.key = some id

/-! ## Only what was handed over is stopped -/

/-- A call of `stop_association` begins only when one of the answers hands the association over. -/
def Handed (answers : List UdpAnswer) (a : UdpAnswer) : Prop :=
  ∀ id, begins id a = true → ∃ b ∈ answers, hands id b = true

section Handed

variable {β : Type} {answers : List UdpAnswer} {op : UdpOp} {id : Nat}

theorem handed_of_ne (h : ∀ id, op ≠ .subscribe id) (resp : op.Resp) : Handed answers ⟨op, resp⟩ := by
  intro id hbegins
  cases op with
  | subscribe id' => exact absurd rfl (h id')
  | _ => cases hbegins

/-- The operations that stop what one of the answers `hands` over. -/
theorem handed_of_stops (hmem : ∃ b ∈ answers, hands id b = true) (h : op.stops id = true)
    (resp : op.Resp) : Handed answers ⟨op, resp⟩ := by
  intro id' hbegins
  cases op with
  | subscribe =>
    obtain rfl := of_decide_eq_true h
    obtain rfl := beq_iff_eq.mp hbegins
    exact hmem
  | _ => cases hbegins

/-- A program whose calls of `stop_association` are on what its answers hand over. -/
abbrev StopsHanded (answers : List UdpAnswer) (p : Udp β) : Prop :=
  p.Given (· ∈ answers) (Handed answers)

/-- What `insert_association` stops is the candidate that was not let in, or what it replaced. -/
theorem stopsHanded_insertAssociation (tuple : SocketTuple) (mapping : OriginalDestination) :
    StopsHanded answers (insertAssociation tuple mapping).run := by
  have hstop : ∀ (id value : Nat), (∃ b ∈ answers, hands id b = true) →
      StopsHanded answers (stopForwarding id >>= fun _ => pure value).run := fun id value hmem => by
    rw [ExceptT.run_bind]
    refine Given.bind (.of_all ((all_stopForwarding id).mono fun _ => handed_of_stops hmem))
      fun result => ?_
    cases result <;> trivial
  refine fun bound _ => ⟨handed_of_ne (by simp) _, ?_⟩
  cases bound with
  | error error => trivial
  | ok bound =>
    refine fun connected _ => ⟨handed_of_ne (by simp) _, ?_⟩
    cases connected with
    | error error => trivial
    | ok connected =>
      refine fun candidate _ => ⟨handed_of_ne (by simp) _, fun existing _ =>
        ⟨handed_of_ne (by simp) _, ?_⟩⟩
      cases existing with
      | some existing => trivial
      | none =>
        refine fun _ _ => ⟨handed_of_ne (by simp) _, fun published hmem =>
          ⟨handed_of_ne (by simp) _, ?_⟩⟩
        rcases published with existing | _ | previous
        · exact hstop candidate existing ⟨_, hmem, by simp [hands]⟩
        · trivial
        · exact hstop previous candidate ⟨_, hmem, by simp [hands]⟩

theorem StopBlock.stopsHanded {receiving : Bool} {p : Udp β} (h : StopBlock receiving β p) :
    StopsHanded answers p := by
  cases h with
  | op op hplain _ =>
    refine .of_all ⟨handed_of_ne fun id => ?_, fun _ => trivial⟩
    rintro rfl
    cases hplain
  | discard tuple =>
    refine fun old hmem => ⟨handed_of_ne (by simp) _, ?_⟩
    cases old with
    | none => trivial
    | some old =>
      exact .of_all ((all_stopForwarding old).mono fun _ =>
        handed_of_stops ⟨_, hmem, by simp [hands]⟩)
  | invalidate tuple flowId generation =>
    refine fun entry _ => ⟨handed_of_ne (by simp) _, ?_⟩
    cases entry with
    | none => trivial
    | some association =>
      refine fun same _ => ⟨handed_of_ne (by simp) _, ?_⟩
      cases same with
      | false => trivial
      | true =>
        refine fun removed hmem => ⟨handed_of_ne (by simp) _, ?_⟩
        cases removed with
        | false => trivial
        | true =>
          have hhanded : ∃ b ∈ answers, hands association b = true :=
            ⟨_, hmem, by simp [hands]⟩
          have hstop : StopsHanded answers (stopAssociation association false) :=
            .of_all ((all_stopAssociation association false).mono fun _ =>
              handed_of_stops hhanded)
          exact hstop.bind fun _ => trivial
  | shutdown =>
    refine fun associations hmem => ⟨handed_of_ne (by simp) _, .of_all ?_⟩
    refine (all_stopAll associations).mono fun op ⟨id, hid, hop⟩ => ?_
    exact handed_of_stops ⟨_, hmem, by simpa [hands] using hid⟩ hop

theorem stopsHanded_of_built {receiving : Bool} {p : Udp β} (h : UdpBuilt receiving p) :
    StopsHanded answers p := by
  induction h with
  | block h =>
    cases h with
    | insert _ tuple mapping => exact stopsHanded_insertAssociation tuple mapping
    | stop h => exact h.stopsHanded
  | ret value => trivial
  | bind _ _ ihp ihf => exact ihp.bind ihf

end Handed

/-! ## An association is published once -/

/-- Whether an answer is one of the making of an association. -/
def makes (id : Nat) : UdpAnswer → Bool
  | ⟨.allocate _ _, id'⟩ => id' == id
  | _ => false

/-- Whether an answer is one of its publication. -/
def publishes (id : Nat) : UdpAnswer → Bool
  | ⟨.publish id', _⟩ => id' == id
  | _ => false

/-- A publication is paid for with the making of the association. -/
def Credit (id n : Nat) (op : UdpOp) (resp : op.Resp) (m : Nat) : Prop :=
  (if publishes id ⟨op, resp⟩ then 1 else 0) + m ≤ n + if makes id ⟨op, resp⟩ then 1 else 0

section Credit

variable {β : Type} {op : UdpOp} {id n : Nat}

/-- A program that publishes no more often than its credit and what it makes allow. -/
abbrev Pays (id n : Nat) (p : Udp β) : Prop := p.Follows (Credit id) (fun _ _ => True) n

theorem credit_of_ne (h : ∀ id, op ≠ .publish id) (resp : op.Resp) : Credit id n op resp n := by
  have : publishes id ⟨op, resp⟩ = false := by
    cases op with
    | publish id' => exact absurd rfl (h id')
    | _ => rfl
  simp [Credit, this]

theorem pays_of_all {p : Udp β} (hp : p.All fun op => ∀ id, op ≠ .publish id) : Pays id n p :=
  (Follows.of_all (fun _ hop resp => credit_of_ne hop resp) hp).mono fun _ _ _ => trivial

/-- The candidate of `insert_association` is made, and published once at most. -/
theorem pays_insertAssociation (tuple : SocketTuple) (mapping : OriginalDestination) :
    Pays id n (insertAssociation tuple mapping).run := by
  have hstop : ∀ (stopped value : Nat), Pays id n (stopForwarding stopped >>= fun _ => pure value).run :=
    fun stopped value => pays_of_all (All.bindE ((all_stopForwarding stopped).mono fun op =>
      ne_publish_of_stops op stopped) fun _ => trivial)
  refine fun bound => ⟨n, credit_of_ne (by simp) _, ?_⟩
  cases bound with
  | error error => trivial
  | ok bound =>
    refine fun connected => ⟨n, credit_of_ne (by simp) _, ?_⟩
    cases connected with
    | error error => trivial
    | ok connected =>
      refine fun candidate => ⟨n + if candidate == id then 1 else 0, ?_, fun existing =>
        ⟨_, credit_of_ne (by simp) _, ?_⟩⟩
      · simp [Credit, publishes, makes]
      cases existing with
      | some existing => trivial
      | none =>
        refine fun _ => ⟨_, credit_of_ne (by simp) _, fun published => ⟨n, ?_, ?_⟩⟩
        · simp [Credit, publishes, makes, Nat.add_comm]
        · rcases published with existing | _ | previous
          · exact hstop candidate existing
          · trivial
          · exact hstop previous candidate

theorem pays_of_built {receiving : Bool} {p : Udp β} (h : UdpBuilt receiving p) (n : Nat) :
    Pays id n p := by
  induction h generalizing n with
  | block h =>
    cases h with
    | insert _ tuple mapping => exact pays_insertAssociation tuple mapping
    | stop h => exact pays_of_all h.ne_publish
  | ret value => trivial
  | bind _ _ ihp ihf => exact (ihp n).bind fun m value _ => ihf value m

end Credit

section Once

variable {listen : StdSocketAddr} {idleTimeout : Nat} {w : UdpWorld}
  (h : udpSystem.Reachable (World.start (.new listen idleTimeout)) w)
include h

/-- An answer `makes` an association once, and the next one gets a number of its own. -/
theorem makes_le_one (id : Nat) :
    w.history.countP (fun e => makes id ⟨e.op, e.resp⟩) ≤ 1 ∧
      (w.shared.associations[id]? = none →
        w.history.countP (fun e => makes id ⟨e.op, e.resp⟩) = 0) := by
  refine Pool.Reachable.induction (I := fun w : UdpWorld =>
    w.history.countP (fun e => makes id ⟨e.op, e.resp⟩) ≤ 1 ∧ (w.shared.associations[id]? = none →
      w.history.countP (fun e => makes id ⟨e.op, e.resp⟩) = 0)) h (by simp [World.start]) ?_
  rintro w action w' ⟨hone, hnone⟩ hact
  cases action with
  | spawn job =>
    obtain ⟨-, rfl⟩ := Pool.act_spawn_iff.mp hact
    exact ⟨hone, hnone⟩
  | step i c =>
    obtain ⟨job, op, next, resp, s, -, hexec, rfl⟩ := Pool.act_step_iff.mp hact
    have hexec : UdpOp.exec c op w.shared = some (resp, s) := hexec
    cases hmakes : makes id ⟨op, resp⟩ with
    | false =>
      simp only [List.countP_cons, hmakes, Bool.false_eq_true, if_false, Nat.add_zero]
      refine ⟨hone, fun hnone' => hnone ?_⟩
      rw [Option.eq_none_iff_forall_not_mem]
      intro a ha
      obtain ⟨a', ha', -⟩ := (effect_of_exec hexec).later id a ha
      have hnone' : s.associations[id]? = none := hnone'
      rw [hnone'] at ha'
      cases ha'
    | true =>
      cases op <;> try cases hmakes
      cases hexec
      obtain rfl := beq_iff_eq.mp hmakes
      have hzero := hnone (List.getElem?_length _)
      simp only [List.countP_cons, hmakes, if_true, hzero]
      refine ⟨le_rfl, fun hnone' => ?_⟩
      have hsome : (w.shared.associations ++ [_])[w.shared.associations.length]? = none := hnone'
      rw [List.getElem?_concat_length] at hsome
      cases hsome

/-- **An answer `publishes` an association at most once.** -/
theorem publishes_le_one (id : Nat) :
    w.history.countP (fun e => publishes id ⟨e.op, e.resp⟩) ≤ 1 := by
  refine le_trans ?_ (makes_le_one h id).1
  rw [h.countP_history, h.countP_history]
  refine Finset.sum_le_sum fun i hi => ?_
  obtain ⟨t, ht⟩ : ∃ t, w.threads[i]? = some t :=
    ⟨_, List.getElem?_eq_getElem (Finset.mem_range.mp hi)⟩
  have hpays : Pays id 0 (t.job.code) := pays_of_built (built_code t.job) 0
  have hle := Follows.countP_le (fun _ _ _ _ hcredit => hcredit) (h.path ht) hpays
  rwa [Nat.zero_add] at hle

/-- A thread that is `InCharge` was handed the association. -/
theorem handed_of_inCharge {id i : Nat} (hcharge : InCharge id w i) :
    ∃ e ∈ w.history, hands id ⟨e.op, e.resp⟩ = true := by
  have hanswer : ∃ a ∈ w.answers i, hands id a = true := by
    rcases hcharge with hhands | hbegins
    · exact List.countP_pos_iff.mp (Nat.zero_lt_of_lt hhands)
    · obtain ⟨a, ha, hbegun⟩ := List.countP_pos_iff.mp (Nat.zero_lt_of_lt hbegins)
      obtain ⟨e, he, rfl, -⟩ := World.mem_answers_iff.mp ha
      obtain ⟨t, ht, -⟩ := h.job_eq e he
      exact (h.path ht).given (stopsHanded_of_built (built_code t.job)) (fun _ ha => ha) a ha id hbegun
  obtain ⟨a, ha, hhands⟩ := hanswer
  obtain ⟨e, he, -, rfl⟩ := World.mem_answers_iff.mp ha
  exact ⟨e, he, hhands⟩

end Once

/-! ## An association is handed over at most once -/

/-- The association is in the table. -/
def Listed (id : Nat) (s : UdpAssociations) : Prop := ∃ tuple, s.entries.find? tuple = some id

section Listed

variable {c : UdpChoice} {op : UdpOp} {s s' : UdpAssociations} {resp : op.Resp} {id : Nat}

/-- An association is `Listed` once, under its own tuple. -/
theorem tuple_unique (hinv : relayContract.inv s) {tuple tuple' : SocketTuple}
    (h : s.entries.find? tuple = some id) (h' : s.entries.find? tuple' = some id) : tuple' = tuple := by
  obtain ⟨a, ha, rfl, -⟩ := hinv tuple id h
  obtain ⟨a', ha', rfl, -⟩ := hinv tuple' id h'
  rw [ha] at ha'
  cases ha'
  rfl

/-- Without its entry the association is not `Listed`. -/
theorem not_listed_of_erase (hinv : relayContract.inv s) {tuple : SocketTuple}
    (h : s.entries.find? tuple = some id) (hentries : s'.entries = s.entries.erase tuple) :
    ¬ Listed id s' := by
  rintro ⟨tuple', h'⟩
  rw [hentries] at h'
  exact (find_erase h').1 (tuple_unique hinv h (find_erase h').2)

/-- What an answer `hands` over is published just now, and not entered by it, or leaves the table. -/
theorem leaves_of_hands (hinv : relayContract.inv s) (hexec : UdpOp.exec c op s = some (resp, s'))
    (h : hands id ⟨op, resp⟩ = true) :
    op = .publish id ∧ (Listed id s' → Listed id s) ∨ Listed id s ∧ ¬ Listed id s' := by
  cases op with
  | removeEntry tuple =>
    cases hexec
    have hentry := of_decide_eq_true h
    exact .inr ⟨⟨tuple, hentry⟩, not_listed_of_erase hinv hentry rfl⟩
  | removeIf tuple id' =>
    cases hexec
    rw [hands, Bool.and_eq_true, decide_eq_true_iff, beq_iff_eq] at h
    obtain ⟨hentry, rfl⟩ := h
    refine .inr ⟨⟨tuple, hentry⟩, not_listed_of_erase hinv hentry ?_⟩
    rw [UdpAssociations.removeExactly, if_pos hentry]
  | drain =>
    cases hexec
    rw [hands, List.contains_iff_mem, List.mem_map] at h
    obtain ⟨⟨tuple, _⟩, hmem, rfl⟩ := h
    refine .inr ⟨⟨tuple, Table.mem_pairs_iff.mp hmem⟩, ?_⟩
    rintro ⟨_, h⟩
    cases h
  | publish candidate =>
    simp only [UdpOp.exec] at hexec
    split at hexec
    · cases hexec
    · rename_i a ha
      split at hexec
      · cases hexec
        exact .inl ⟨by rw [beq_iff_eq.mp h], fun hlisted => hlisted⟩
      · cases hexec
        have hentry : s.entries.find? a.key = some id := of_decide_eq_true h
        by_cases hcandidate : candidate = id
        · exact .inl ⟨by rw [hcandidate], fun _ => ⟨_, hentry⟩⟩
        · refine .inr ⟨⟨_, hentry⟩, ?_⟩
          rintro ⟨tuple, h'⟩
          have h' : (s.entries.insert a.key candidate).find? tuple = some id := h'
          rw [Table.find?_insert] at h'
          split at h'
          · exact hcandidate (Option.some.inj h')
          · rename_i hne
            exact hne (tuple_unique hinv hentry h')
  | _ => cases h

/-- A relay that `FindsOwn` takes its entry out of the table. -/
theorem FindsOwn.leaves {e : UdpEvent} (h : FindsOwn id e) (hinv : relayContract.inv e.before)
    (hexec : UdpOp.exec e.choice e.op e.before = some (e.resp, s')) :
    Listed id e.before ∧ ¬ Listed id s' ∧ hands id ⟨e.op, e.resp⟩ = false ∧ ∀ id, e.op ≠ .publish id := by
  obtain ⟨thread, job, c, op, resp, before⟩ := e
  obtain ⟨rfl, a, ha, hrelay, hentry⟩ := h
  have hexec : UdpOp.exec c (.relay id) before = some (resp, s') := hexec
  have ha : before.associations[id]? = some a := ha
  have hentry : before.entries.find? a.key = some id := hentry
  simp only [UdpOp.exec, ha, relayStep, hrelay, Option.map_some, Option.some.injEq, Prod.mk.injEq,
    true_and] at hexec
  refine ⟨⟨a.key, hentry⟩, not_listed_of_erase hinv hentry ?_, rfl, by simp⟩
  rw [← hexec]
  show (before.removeExactly a.key id).entries = _
  rw [UdpAssociations.removeExactly, if_pos hentry]

end Listed

/-- How often an association was handed over is bounded by its publications; one that is in the table,
or whose relay found its own entry, has a publication left over. -/
structure Booked (id : Nat) (w : UdpWorld) : Prop where
  handed : w.history.countP (fun e => hands id ⟨e.op, e.resp⟩) ≤
    w.history.countP fun e => publishes id ⟨e.op, e.resp⟩
  listed : Listed id w.shared → w.history.countP (fun e => hands id ⟨e.op, e.resp⟩) <
    w.history.countP fun e => publishes id ⟨e.op, e.resp⟩
  found : (∃ e ∈ w.history, FindsOwn id e) → ¬ Listed id w.shared ∧
    w.history.countP (fun e => hands id ⟨e.op, e.resp⟩) <
      w.history.countP fun e => publishes id ⟨e.op, e.resp⟩

section Reached

variable {listen : StdSocketAddr} {idleTimeout : Nat} {w w' : UdpWorld} {id : Nat}

section

variable (h : udpSystem.Reachable (World.start (.new listen idleTimeout)) w)

include h

theorem relayInv_of_reachable : relayContract.inv w.shared :=
  (relayContract_sound.kept (s := .new listen idleTimeout) (fun _ _ h => by cases h)
    (fun _ => trivial) h fun _ _ => trivial).inv

theorem booked_of_reachable : Booked id w := by
  refine (Pool.Reachable.induction (I := fun w => udpSystem.Reachable
    (World.start (.new listen idleTimeout)) w ∧ Booked id w) h ⟨.refl _, ?_⟩ ?_).2
  · refine ⟨le_rfl, ?_, by simp [World.start]⟩
    rintro ⟨_, h⟩
    cases h
  rintro w action w' ⟨hreach, hbooked⟩ hact
  refine ⟨hreach.step hact, ?_⟩
  have hone := publishes_le_one (hreach.step hact) id
  cases action with
  | spawn job =>
    obtain ⟨-, rfl⟩ := Pool.act_spawn_iff.mp hact
    exact ⟨hbooked.handed, hbooked.listed, hbooked.found⟩
  | step i c =>
    obtain ⟨job, op, next, resp, s, -, hexec, rfl⟩ := Pool.act_step_iff.mp hact
    have hexec : UdpOp.exec c op w.shared = some (resp, s) := hexec
    have hinv := relayInv_of_reachable hreach
    obtain ⟨hhanded, hlisted, hfound⟩ := hbooked
    have hpublish : publishes id ⟨op, resp⟩ = true ↔ op = .publish id := by
      cases op <;> simp [publishes]
    have hhands : hands id ⟨op, resp⟩ = true → _ := leaves_of_hands hinv hexec
    have hentry : Listed id s → Listed id w.shared ∨ op = .publish id := by
      rintro ⟨tuple, htuple⟩
      exact ((effect_of_exec hexec).entry htuple).imp_left fun h => ⟨tuple, h⟩
    simp only [List.countP_cons] at hone
    refine ⟨?_, fun hlisted' => ?_, fun hfound' => ?_⟩ <;> simp only [List.countP_cons]
    · by_cases hnow : hands id ⟨op, resp⟩ = true
      · rw [if_pos hnow]
        rcases hhands hnow with ⟨hop, -⟩ | ⟨hbefore, -⟩
        · rw [if_pos (hpublish.mpr hop)]
          omega
        · have := hlisted hbefore
          omega
      · rw [if_neg hnow]
        omega
    · by_cases hnow : hands id ⟨op, resp⟩ = true
      · rw [if_pos hnow]
        rcases hhands hnow with ⟨hop, hstays⟩ | ⟨-, hgone⟩
        · have := hlisted (hstays hlisted')
          rw [if_pos (hpublish.mpr hop)]
          omega
        · exact absurd hlisted' hgone
      · rw [if_neg hnow]
        rcases hentry hlisted' with hbefore | hop
        · have := hlisted hbefore
          omega
        · rw [if_pos (hpublish.mpr hop)]
          omega
    · obtain ⟨e, he, hown⟩ := hfound'
      rcases List.mem_cons.mp he with rfl | he
      · obtain ⟨hbefore, hgone, hnow, hop⟩ := hown.leaves hinv hexec
        have := hlisted hbefore
        rw [if_neg (by rw [hnow]; rintro ⟨⟩), if_neg (mt hpublish.mp (hop id))]
        exact ⟨hgone, by omega⟩
      · -- the one publication lies behind, so that nothing brings the entry back
        obtain ⟨hgone, hlt⟩ := hfound ⟨e, he, hown⟩
        have hop : op ≠ .publish id := by
          intro hop
          rw [if_pos (hpublish.mpr hop)] at hone
          omega
        have hnow : ¬ hands id ⟨op, resp⟩ = true := fun hnow =>
          (hhands hnow).elim (fun h => hop h.1) fun h => hgone h.1
        rw [if_neg hnow, if_neg (mt hpublish.mp hop)]
        exact ⟨fun hlisted' => (hentry hlisted').elim hgone hop, by omega⟩

/-- **An association whose relay `FindsOwn` is handed to nobody.** -/
theorem not_handed_of_findsOwn (hfound : ∃ e ∈ w.history, FindsOwn id e) :
    ∀ e ∈ w.history, hands id ⟨e.op, e.resp⟩ = false := by
  have hlt := ((booked_of_reachable h).found hfound).2
  have hone := publishes_le_one h id
  have hzero : w.history.countP (fun e => hands id ⟨e.op, e.resp⟩) = 0 := by omega
  exact fun e he => Bool.eq_false_iff.mpr (List.countP_eq_zero.mp hzero e he)

/-- A continuation of a run is a run, and nothing of its history is lost. -/
theorem continues (h' : udpSystem.Reachable w w') :
    udpSystem.Reachable (World.start (.new listen idleTimeout)) w' ∧ w.history ⊆ w'.history := by
  refine Pool.Reachable.induction (I := fun w' => udpSystem.Reachable
    (World.start (.new listen idleTimeout)) w' ∧ w.history ⊆ w'.history) h' ⟨h, fun _ he => he⟩ ?_
  rintro w₁ action w₂ ⟨hreach, hsub⟩ hact
  refine ⟨hreach.step hact, fun e he => ?_⟩
  cases action with
  | spawn job =>
    obtain ⟨-, rfl⟩ := Pool.act_spawn_iff.mp hact
    exact hsub he
  | step i c =>
    obtain ⟨job, op, next, resp, s, -, -, rfl⟩ := Pool.act_step_iff.mp hact
    exact List.mem_cons_of_mem _ (hsub he)

end

end Reached

/-! ## Completions -/

/-- **The completion of a relay is seen by all who stop its association exactly when someone waited for it
or nobody ever stops it.** Once the relay of an association has returned, every thread that is in charge
of the association, now or in a continuation of the run, sees the completion and gets its call of
`stop_association` back, exactly when the completion was sent to a receiver or no thread is ever in
charge. No thread is when the relay found its own entry in its critical section. When nobody received
the completion, every thread in charge waits for ever. -/
theorem completion_seen_iff {listen : StdSocketAddr} {idleTimeout : Nat} {w : UdpWorld} {id : Nat}
    {a : UdpAssociation} (h : udpSystem.Reachable (World.start (.new listen idleTimeout)) w)
    (ha : w.shared.associations[id]? = some a) (hreturned : a.relay = .returned) :
    ((∀ w' i, udpSystem.Reachable w w' → InCharge id w' i → StopReturns id w'.shared) ↔
      (∃ e ∈ w.history, Heard id e) ∨ ∀ w' i, udpSystem.Reachable w w' → ¬ InCharge id w' i) ∧
    ((∃ e ∈ w.history, FindsOwn id e) → ∀ w' i, udpSystem.Reachable w w' → ¬ InCharge id w' i) ∧
    ((¬ ∃ e ∈ w.history, Heard id e) → ∀ w', udpSystem.Reachable w w' →
      ∀ c, UdpOp.exec c (.changed id false) w'.shared = none) := by
  rw [← done_iff_heard h ha]
  refine ⟨⟨fun hstops => ?_, fun hcases w' i hreach hcharge => ?_⟩, fun hfound w' i hreach hcharge => ?_,
    fun hdone w' hreach c => ?_⟩
  · by_contra hneither
    obtain ⟨hdone, hsome⟩ := not_or.mp hneither
    push Not at hsome
    obtain ⟨w', i, hreach, hcharge⟩ := hsome
    obtain ⟨a', ha', hmoves⟩ := later_of_reachable hreach id a ha
    rw [← hmoves.settled hreturned] at hdone
    exact hdone ((hstops w' i hreach hcharge).done ha')
  · rcases hcases with hdone | hnobody
    · obtain ⟨a', ha', hmoves⟩ := later_of_reachable hreach id a ha
      exact stopReturns_of_done ha' (hmoves.done hdone)
    · exact absurd hcharge (hnobody w' i hreach)
  · obtain ⟨hreach', hsub⟩ := continues h hreach
    obtain ⟨e, he, hhands⟩ := handed_of_inCharge hreach' hcharge
    obtain ⟨e₀, he₀, hown⟩ := hfound
    rw [not_handed_of_findsOwn hreach' ⟨e₀, hsub he₀, hown⟩ e he] at hhands
    cases hhands
  · exact waits_for_ever ha hreturned (Bool.not_eq_true _ ▸ hdone) hreach c

/-- The test for `FindsOwn`. -/
def findsOwn (id : Nat) (e : UdpEvent) : Bool :=
  match e.op with
  | .relay id' => id' == id && (e.before.associations[id]?).any fun a =>
    a.relay = .stopping && e.before.entries.find? a.key = some id
  | _ => false

theorem findsOwn_of_test {id : Nat} {e : UdpEvent} (h : findsOwn id e = true) : FindsOwn id e := by
  unfold findsOwn at h
  split at h
  · rename_i id' hop
    simp only [Bool.and_eq_true, beq_iff_eq, Option.any_eq_true, decide_eq_true_iff] at h
    obtain ⟨rfl, a, ha, hrelay, hentry⟩ := h
    exact ⟨hop, a, ha, hrelay, hentry⟩
  · cases h

/-- One association, whose relay leaves its loop when it has been idle for its timeout. -/
def sampleIdle : List (Action UdpJob UdpChoice) :=
  sampleForwarding 0 1 (sampleClient 1000) (sampleServer 1) ++ sampleRelay 2 0 .idle 60 ++
    sampleRelay 3 0 .idle 60 ++ sampleRelay 4 0 .idle 60

/-- The relay of an idle association finds its own entry, and nobody ever waits for it. Of two relays at
shutdown the one that is waited for is seen to complete. -/
theorem completion_seen_sample :
    (∃ (w : UdpWorld) (a : UdpAssociation),
      udpSystem.Reachable (World.start (.new sampleListen 60)) w ∧
      w.shared.associations[0]? = some a ∧ a.relay = .returned ∧ a.relayDone = false ∧
      ∀ w' i, udpSystem.Reachable w w' → ¬ InCharge 0 w' i) ∧
    ∃ (w : UdpWorld) (a : UdpAssociation),
      udpSystem.Reachable (World.start (.new sampleListen 60)) w ∧
      w.shared.associations[1]? = some a ∧ a.relay = .returned ∧
      ∀ w' i, udpSystem.Reachable w w' → InCharge 1 w' i → StopReturns 1 w'.shared := by
  constructor
  · have hrun : (udpSystem.run (World.start (.new sampleListen 60)) sampleIdle).any (fun w =>
        ((w.shared.associations[0]?).any fun a => a.relay = .returned && !a.relayDone) &&
          w.history.any fun e => findsOwn 0 e) = true := by
      decide +kernel
    obtain ⟨w, hreach, hcheck⟩ := Pool.exists_reachable_of_run hrun
    simp only [Bool.and_eq_true, Option.any_eq_true, decide_eq_true_iff, Bool.not_eq_true',
      List.any_eq_true] at hcheck
    obtain ⟨⟨a, ha, hreturned, hdone⟩, e, he, hown⟩ := hcheck
    exact ⟨w, a, hreach, ha, hreturned, hdone,
      (completion_seen_iff hreach ha hreturned).2.1 ⟨e, he, findsOwn_of_test hown⟩⟩
  · obtain ⟨w, -, b, -, hreach, -, ⟨hb, hreturned, hdone⟩, -⟩ := exists_hung
    have hheard := (done_iff_heard hreach hb).mp hdone
    exact ⟨w, b, hreach, hb, hreturned, (completion_seen_iff hreach hb hreturned).1.mpr (.inl hheard)⟩

end ShadowSocketProxy.HostProxy
