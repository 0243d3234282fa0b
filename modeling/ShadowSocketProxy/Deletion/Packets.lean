import ShadowSocketProxy.Deletion.Round
import ShadowSocketProxy.Bpf.Footprint

/-! # Packets and the deletion rounds

Every operation of a classifier run keeps the invariant of the deletion rounds. The routines on the
flow itself are walked through operation by operation; the others are passed over by their
footprints. -/

namespace ShadowSocketProxy.Deletion

open Interleaving Bpf ControlService

variable {op : Op} {slots : Slots}

/-! ## The outline -/

/-- The job deletes the flow, and the value reports that it removed the record. -/
def ReportsRemoval (k : FlowStateKey) (job : Job) (value : Outcome) (observed : UInt64) : Prop :=
  ∃ flowId generation guardDeadlineNs report,
    job = .delete flowId generation observed guardDeadlineNs ∧ stateKeyOf flowId generation = k ∧
      value = .report (.ok report) ∧ report.stateDeleted = true

/-- The outline of the deletion rounds of one flow, with `Inv` as its invariant. -/
def outline (k : FlowStateKey) : Outline Op Resp Maps Choice Job Outcome Phase where
  inv := Inv k
  permitted e := creates k e.op e.resp = false
  ends thread job φ value :=
    φ.counted = false ∧ ∀ observed, ReportsRemoval k job value observed →
      φ = .removed thread observed
  settled thread job value history :=
    ∀ observed, ReportsRemoval k job value observed → RemovedBy k thread observed history

variable {k key : FlowStateKey} {thread : Nat} {job : Job} {φ : Phase} {β : Type}

/-- Safety of a program towards the rounds of the flow. -/
abbrev Safe (k : FlowStateKey) (thread : Nat) (job : Job) (Q : Phase → β → Prop) (φ : Phase)
    (p : Prog β) : Prop :=
  (outline k).Safe machine thread job Q φ p

/-! ## Operations that leave every phase as it is -/

/-- An operation of no concern, or an abort of the round by a packet. -/
def Harmless (k : FlowStateKey) (op : Op) : Prop :=
  ¬ Concerns k op ∨ ∃ value, op = .update .deleteOutcome k value .noexist

theorem ignores_of_harmless (h : Harmless k op) : (outline k).Ignores machine thread job φ op := by
  intro c resp s s' history rest hinv hexec _
  rcases h with h | ⟨value, rfl⟩
  · exact Inv.ignore hinv hexec h
  · exact Inv.abort hinv hexec

/-- A program of `Harmless` operations stays in its phase. -/
theorem safe_of_all {p : Prog β} (hp : p.All (Harmless k)) :
    Safe k thread job (fun φ' _ => φ' = φ) φ p :=
  Outline.Safe.of_all (fun _ => ignores_of_harmless) hp

theorem harmless_read (h : ReadOp op) : Harmless k op :=
  .inl (by cases h <;> simp [Concerns, Op.MayChange])

theorem harmless_slot (h : SlotOp op) : Harmless k op := by
  cases h with
  | read h => exact harmless_read h
  | _ => exact .inl (by simp [Concerns, Op.MayChange])

theorem harmless_guard (h : GuardOp key op) : Harmless k op := by
  cases h with
  | read h => exact harmless_read h
  | abort =>
    by_cases hkey : key = k
    · exact .inr ⟨_, by rw [hkey]⟩
    · exact .inl (by simp [Concerns, Op.MayChange, hkey])
  | dropGuard => exact .inl (by simp [Concerns, Op.MayChange])

theorem harmless_admit (hkey : key ≠ k) (h : AdmitOp key op) : Harmless k op := by
  cases h with
  | guard h => exact harmless_guard h
  | _ => exact .inl (by simp [Concerns, Op.MayChange, hkey])

theorem harmless_create {candidate : FlowStateValue}
    (hkey : stateKeyOf candidate.flowId candidate.generation ≠ k) (h : CreateOp candidate op) :
    Harmless k op := by
  cases h with
  | slot h => exact harmless_slot h
  | _ => exact .inl (by simp [Concerns, Op.MayChange, hkey])

theorem harmless_index (h : IndexOp op) : Harmless k op :=
  .inl (by cases h <;> simp [Concerns, Op.MayChange])

theorem harmless_host (hkey : key ≠ k) (h : HostOp key op) : Harmless k op := by
  cases h with
  | index h => exact harmless_index h
  | getInflight =>
    exact .inl (by simpa [Concerns, Op.MayChange] using hkey)
  | _ => exact .inl (by simp [Concerns, Op.MayChange, hkey])

/-! ## A packet inside the flow -/

/-- Leaving from inside: the count goes down with the thread. -/
theorem Inv.leave {s s' : Maps} {history : List SystemEvent} {rest : Multiset (Job × Phase)}
    {c : Choice} {resp : Unit} (hinv : Inv k s history ((job, φ) ::ₘ rest))
    (hφ : φ.counted = true)
    (hexec : exec c (.inflightAdd k (-1)) s = some (resp, s')) :
    Inv k s' (⟨thread, job, c, .inflightAdd k (-1), resp, s⟩ :: history) ((job, .out) ::ₘ rest) := by
  refine hinv.shift hexec ?_ rfl trivial rfl
  have hout : Phase.out.counted = false := rfl
  simp only [inFlight_cons, hφ, hout, if_true, Bool.false_eq_true, if_false]
  omega

theorem safe_backOut (hφ : φ.counted = true) :
    Safe k thread job (fun φ' result => φ' = .out ∧ result = none) φ (backOut k) :=
  Outline.Safe.perform fun _ _ _ _ _ _ hinv hexec _ =>
    ⟨.out, Inv.leave hinv hφ hexec, rfl, rfl⟩

/-- The second `deletion_guard_active`: a thread inside either sees a reason to back out, or goes on
past an outcome that showed no commit. -/
theorem safe_secondCheck :
    Safe k thread job (fun φ' active => φ' = .cleared ∨ φ' = .inside ∧ active = true) .inside
      (deletionGuardActive k) := by
  refine Outline.Safe.ignore (ignores_of_harmless (harmless_read (.lookup (by decide) _))) fun guard => ?_
  refine Outline.Safe.perform fun c outcome s s' history rest hinv hexec _ => ?_
  obtain ⟨houtcome, hsame⟩ := exec_lookup (c := c) hexec
  -- In a quiet stage the outcome is the commit, so a thread that saw another one is not in it.
  have hclear : outcome ≠ some flowDeleteCommitted →
      Inv k s' (⟨thread, job, c, .lookup .deleteOutcome k, outcome, s⟩ :: history)
        ((job, .cleared) ::ₘ rest) := by
    intro hne
    refine Inv.read hinv hexec hsame (by simp [Concerns, Op.MayChange]) rfl (fun hquiet _ => ?_)
      trivial (by simp [Phase.isRound])
    exact absurd (houtcome.trans (hinv.outcome (by simp [hquiet]))) hne
  have hstay : Inv k s' (⟨thread, job, c, .lookup .deleteOutcome k, outcome, s⟩ :: history)
      ((job, .inside) ::ₘ rest) :=
    Inv.ignore hinv hexec (by simp [Concerns, Op.MayChange])
  cases outcome with
  | some outcome =>
    by_cases hcommitted : outcome = flowDeleteCommitted
    · exact ⟨.inside, hstay, by simp [hcommitted]⟩
    · refine ⟨.cleared, hclear (by simpa using hcommitted), ?_⟩
      simp only [hcommitted, if_false]
      split <;> exact .inl rfl
  | none =>
    refine ⟨.cleared, hclear (by simp), ?_⟩
    refine Outline.Safe.mono (Q := fun φ' _ => φ' = .cleared) ?_ fun φ' _ h => .inl h
    cases guard with
    | none => rfl
    | some deadline =>
      refine Outline.Safe.ignore (ignores_of_harmless (harmless_read .ktime)) fun now => ?_
      split
      · refine Outline.Safe.ignore (ignores_of_harmless (.inr ⟨_, rfl⟩)) fun aborted => ?_
        cases aborted with
        | true =>
          exact Outline.Safe.ignore
            (ignores_of_harmless (.inl (by simp [Concerns, Op.MayChange]))) fun _ => rfl
        | false =>
          exact Outline.Safe.ignore (ignores_of_harmless (harmless_read (.lookup (by decide) _)))
            fun _ => rfl
      · rfl

/-- `reenterState` resolves the record again: an active one admits the packet. -/
theorem safe_reenterState :
    Safe k thread job (fun φ' result => φ' = .out ∧ result = none ∨ φ' = .admitted ∧ result.isSome)
      .cleared (reenterState k) := by
  refine Outline.Safe.perform fun c current s s' history rest hinv hexec _ => ?_
  obtain ⟨hcurrent, hsame⟩ := exec_lookup (c := c) hexec
  have hstay : Inv k s' (⟨thread, job, c, .lookup .flowState k, current, s⟩ :: history)
      ((job, .cleared) ::ₘ rest) :=
    Inv.ignore hinv hexec (by simp [Concerns, Op.MayChange])
  have hback : Safe k thread job
      (fun φ' result => φ' = .out ∧ result = none ∨ φ' = .admitted ∧ result.isSome) .cleared
      (backOut k) :=
    Outline.Safe.mono (safe_backOut rfl) fun _ _ h => .inl h
  cases current with
  | none => exact ⟨.cleared, hstay, hback⟩
  | some state =>
    by_cases hactive : state.lifecycle = flowActive
    · refine ⟨.admitted, ?_, by simp [hactive]⟩
      refine Inv.read hinv hexec hsame (by simp [Concerns, Op.MayChange]) rfl
        (fun hquiet hs => ?_) ?_ (by simp [Phase.isRound])
      · exact absurd (hinv.excluded hquiet hs _ (Multiset.mem_cons_self _ _))
          (by simp [Phase.risky])
      · show (s.find .flowState k).isSome
        rw [← hcurrent]
        rfl
    · exact ⟨.cleared, hstay, by simpa [hactive] using hback⟩

/-- Behind `enter_flow_packet` the packet is `.out` again, or `.admitted`. -/
theorem safe_enterFlowPacket :
    Safe k thread job (fun φ' result => φ' = .out ∧ result = none ∨ φ' = .admitted ∧ result.isSome)
      .out (enterFlowPacket k) := by
  refine Outline.Safe.bind (safe_of_all ((all_deletionGuardActive k).mono fun _ => harmless_guard))
    fun φ' active hφ' => ?_
  subst hφ'
  split
  · exact .inl ⟨rfl, rfl⟩
  · refine Outline.Safe.ignore (ignores_of_harmless (harmless_read (.lookup (by decide) _)))
      fun inFlight => ?_
    cases inFlight with
    | none => exact .inl ⟨rfl, rfl⟩
    | some count =>
      refine Outline.Safe.perform fun c resp s s' history rest hinv hexec _ => ?_
      refine ⟨.inside, Inv.shift hinv hexec (by simp [inFlight_cons, Phase.counted]) rfl trivial
        rfl, ?_⟩
      refine Outline.Safe.bind safe_secondCheck fun φ' active hφ' => ?_
      cases active with
      | true =>
        have hcounted : φ'.counted = true := by rcases hφ' with rfl | ⟨rfl, -⟩ <;> rfl
        exact Outline.Safe.mono (safe_backOut hcounted) fun _ _ h => .inl h
      | false =>
        rcases hφ' with rfl | ⟨-, h⟩
        · exact safe_reenterState
        · cases h

/-- `update_state` of an admitted packet. -/
theorem safe_updateState (packet : PacketInfo) (ingress : Bool) (now : UInt64) :
    Safe k thread job (fun φ' _ => φ' = .inside) .admitted (updateState k packet ingress now) := by
  have hstore : ∀ write, Safe k thread job (fun φ' _ => φ' = .inside) .admitted
      (perform (.stateStore k write)) :=
    fun write c resp s s' history rest hinv hexec _ => ⟨.inside, Inv.store hinv hexec, rfl⟩
  unfold updateState
  split
  · exact Outline.Safe.ignore (ignores_of_harmless (harmless_read .configLookup)) fun _ => hstore _
  · exact hstore _

/-- `leave_flow_packet`: a count that is gone has nothing to give back. -/
theorem safe_leaveFlowPacket :
    Safe k thread job (fun φ' _ => φ' = .out) .inside (leaveFlowPacket k) := by
  refine Outline.Safe.perform fun c inFlight s s' history rest hinv hexec _ => ?_
  obtain ⟨hread, rfl⟩ := exec_lookup (c := c) hexec
  cases inFlight with
  | none =>
    refine ⟨.out, ?_, rfl⟩
    refine Inv.move hinv rfl rfl (fun write => by simp) (fun n hn => ?_) (fun h => h) (fun h => h)
      (fun _ _ => rfl) trivial (by simp [Phase.isRound])
    rw [← hread] at hn
    cases hn
  | some count =>
    exact ⟨.inside, Inv.ignore hinv hexec (by simp [Concerns, Op.MayChange]),
      fun c resp s s' history rest hinv hexec _ => ⟨.out, Inv.leave hinv rfl hexec, rfl⟩⟩

theorem safe_admitPacket (frame : List UInt8) (packet : PacketInfo) (ingress : Bool)
    (key : FlowStateKey) :
    Safe k thread job (fun φ' _ => φ' = .out) .out (admitPacket frame packet ingress key) := by
  by_cases hkey : key = k
  · subst hkey
    refine Outline.Safe.bind safe_enterFlowPacket fun φ' entered hφ' => ?_
    cases entered with
    | none =>
      rcases hφ' with ⟨rfl, -⟩ | ⟨-, h⟩
      · rfl
      · cases h
    | some state =>
      obtain rfl : φ' = .admitted := by simpa using hφ'
      refine Outline.Safe.ignore (ignores_of_harmless (harmless_read .ktime)) fun now => ?_
      refine Outline.Safe.bind (safe_updateState packet ingress now) fun φ' _ hφ' => ?_
      subst hφ'
      exact Outline.Safe.bind safe_leaveFlowPacket fun φ' _ hφ' => hφ'
  · exact safe_of_all ((all_admitPacket frame packet ingress key).mono fun _ => harmless_admit hkey)

theorem safe_processResolved (frame : List UInt8) (packet : PacketInfo) (ingress : Bool)
    (index : Bpf.FlowIndexValue) :
    Safe k thread job (fun φ' _ => φ' = .out) .out (processResolved frame packet ingress index) := by
  refine Outline.Safe.ignore (ignores_of_harmless (.inl (by simp [Concerns, Op.MayChange])))
    fun state => ?_
  cases state with
  | none => rfl
  | some state =>
    dsimp only
    split
    · exact safe_admitPacket frame packet ingress _
    · rfl

/-! ## A packet that creates a flow -/

/-- `insertFlow` under the key of the flow is refused, since the flow is not recreated. -/
theorem safe_insertFlow (hslots : slots.Proper) (candidate : FlowStateValue) :
    Safe k thread job (fun φ' _ => φ' = .out) .out (insertFlow slots candidate) := by
  by_cases hkey : stateKeyOf candidate.flowId candidate.generation = k
  · refine Outline.Safe.perform fun c inserted s s' history rest hinv hexec hperm => ?_
    cases inserted with
    | true =>
      rw [hkey] at hperm
      exact absurd hperm (by simp [outline, creates])
    | false =>
      obtain ⟨-, rfl⟩ | ⟨h, -⟩ := exec_update (c := c) hexec
      · refine ⟨.out, ?_, ?_⟩
        · exact Inv.move hinv rfl rfl (fun write => by simp) hinv.count (fun h => h) (fun h => h)
            (fun _ _ => rfl) trivial (by simp [Phase.isRound])
        · exact safe_of_all ((hslots.release.mono fun _ => harmless_slot).bind fun _ =>
            (all_resolveAgain _).mono fun _ => harmless_read)
      · cases h
  · exact safe_of_all ((all_insertFlow hslots candidate).mono fun _ => harmless_create hkey)

theorem safe_createToward (hslots : slots.Proper) (packet : PacketInfo) (lookupKey : TupleKey)
    (target : Address) (targetPort : UInt16) :
    Safe k thread job (fun φ' _ => φ' = .out) .out
      (createToward slots packet lookupKey target targetPort) := by
  refine Outline.Safe.ignore (ignores_of_harmless (harmless_read (.arrayLookup _))) fun scratch => ?_
  split
  · refine Outline.Safe.ignore (ignores_of_harmless (harmless_read (.arrayLookup _)))
      fun counter => ?_
    split
    · refine Outline.Safe.ignore
        (ignores_of_harmless (.inl (by simp [Concerns, Op.MayChange]))) fun previous => ?_
      refine Outline.Safe.ignore (ignores_of_harmless (harmless_read .ktime)) fun now => ?_
      refine Outline.Safe.bind (safe_of_all (hslots.reserve.mono fun _ => harmless_slot))
        fun φ' reserved hφ' => ?_
      subst hφ'
      split
      · exact safe_insertFlow hslots _
      · exact safe_of_all (all_dropCreation.mono fun _ => harmless_read)
    · rfl
  · rfl

/-- `process_packet` ends `.out` of the flow. -/
theorem safe_processPacket (hslots : slots.Proper) (frame : List UInt8) (ingress : Bool) :
    Safe k thread job (fun φ' _ => φ' = .out) .out (processPacket slots frame ingress) := by
  have hread : ∀ {β : Type} {p : Prog β}, p.All ReadOp →
      Safe k thread job (fun φ' _ => φ' = .out) .out p :=
    fun hp => safe_of_all (hp.mono fun _ => harmless_read)
  unfold processPacket
  cases parsePacket frame with
  | none => rfl
  | some packet =>
    refine Outline.Safe.bind (hread (all_isControlPacket packet ingress)) fun φ' control hφ' => ?_
    subst hφ'
    split
    · exact Outline.Safe.bind (hread (all_incrementCounter _)) fun φ' _ hφ' => hφ'
    · refine Outline.Safe.bind (Q := fun φ' _ => φ' = .out) ?_ fun φ' resolution hφ' => ?_
      · refine Outline.Safe.ignore (ignores_of_harmless (harmless_read (.lookup (by decide) _)))
          fun index => ?_
        cases index with
        | some index => rfl
        | none =>
          dsimp only
          split
          · refine Outline.Safe.bind (hread (all_targetForPacket packet)) fun φ' target hφ' => ?_
            subst hφ'
            cases target with
            | none =>
              exact Outline.Safe.bind (hread (all_incrementCounter _)) fun φ' _ hφ' => hφ'
            | some target => exact safe_createToward hslots packet _ target.1 target.2
          · rfl
      · subst hφ'
        cases resolution with
        | verdict action => rfl
        | index index => exact safe_processResolved frame packet ingress index

end ShadowSocketProxy.Deletion
