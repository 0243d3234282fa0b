import ShadowSocketProxy.Bpf.Footprint
import ShadowSocketProxy.System

/-! # Generations

Every creation draws its generation from one 64-bit counter that all classifiers share: the low half of
the incremented counter, with one in the place of zero. In any interleaving the draws are consecutive
numbers. Two draws that are less than a round apart give the same generation in one case only, the case
of zero and one. -/

namespace ShadowSocketProxy.Flows

open Interleaving Bpf ControlService
open Interleaving.Program (Path Answer)

variable {w : SystemWorld} {key : FlowStateKey}

/-! ## The counter -/

/-- What the counter stood at when an answered operation drew from it. -/
def drawOf : (op : Op) → Resp op → Option UInt64
  | .generationAdd, previous => some previous
  | _, _ => none

/-- The draws of a run, the earliest first, each with the thread that drew. -/
def draws (w : SystemWorld) : List (Nat × UInt64) :=
  w.history.reverse.filterMap fun e => (drawOf e.op e.resp).map fun previous => (e.thread, previous)

section Step

variable {c : Choice} {op : Op} {s s' : Maps} {resp : Resp op}
  (hexec : exec c op s = some (resp, s'))

include hexec

/-- An operation with a `drawOf` increments the counter. -/
theorem exec_of_draw {previous : UInt64} (h : drawOf op resp = some previous) :
    previous = s.generation ∧ s'.generation = s.generation + 1 := by
  cases op
  case generationAdd =>
      cases hexec
      cases h
      exact ⟨rfl, rfl⟩
  all_goals cases h

/-- An operation without `drawOf` leaves the counter. -/
theorem exec_of_no_draw (h : drawOf op resp = none) : s'.generation = s.generation := by
  cases op
  case generationAdd => cases h
  case reserveSlot =>
      obtain rfl : s.reserveFlowSlot.2 = s' := congrArg Prod.snd (Option.some.inj hexec)
      exact reserveFlowSlot_keeps s Maps.generation fun _ _ _ _ => rfl
  all_goals
    simp only [exec, hostCall] at hexec
    repeat' split at hexec
  all_goals
    cases hexec
    rfl

end Step

/-- **The draws are numbered.** In every interleaving the counter has been incremented once for each
draw, and a draw is answered with the number of draws before it. -/
theorem draws_numbered {slots : Slots} {s : Maps}
    (hreach : (system slots).Reachable (World.start s) w) :
    w.shared.generation = s.generation + UInt64.ofNat (draws w).length ∧
      ∀ i thread previous, (draws w)[i]? = some (thread, previous) →
        previous = s.generation + UInt64.ofNat i := by
  refine hreach.induction (I := fun w => w.shared.generation =
      s.generation + UInt64.ofNat (draws w).length ∧ ∀ i thread previous,
        (draws w)[i]? = some (thread, previous) → previous = s.generation + UInt64.ofNat i)
    ⟨?_, ?_⟩ ?_
  · exact (UInt64.add_zero _).symm
  · intro i thread previous h
    cases h
  · rintro w a w' ⟨hcount, hdraws⟩ hact
    cases a with
    | spawn job =>
      obtain ⟨-, rfl⟩ := Pool.act_spawn_iff.mp hact
      exact ⟨hcount, hdraws⟩
    | step i c =>
      obtain ⟨job, op, next, resp, s', -, hexec, rfl⟩ := Pool.act_step_iff.mp hact
      have hexec : exec c op w.shared = some (resp, s') := hexec
      have hhistory : draws ⟨s', w.threads.set i ⟨job, next resp⟩,
          ⟨i, job, c, op, resp, w.shared⟩ :: w.history⟩ =
            draws w ++ ((drawOf op resp).map fun previous => (i, previous)).toList := by
        rw [draws, List.reverse_cons, List.filterMap_append, List.filterMap_cons, List.filterMap_nil]
        cases drawOf op resp <;> rfl
      rw [hhistory]
      cases hdraw : drawOf op resp with
      | none =>
        rw [Option.map_none, Option.toList_none, List.append_nil]
        exact ⟨(exec_of_no_draw hexec hdraw).trans hcount, hdraws⟩
      | some previous =>
        obtain ⟨rfl, hnext⟩ := exec_of_draw hexec hdraw
        rw [Option.map_some, Option.toList_some]
        constructor
        · show s'.generation = _
          rw [hnext, hcount, List.length_append, List.length_singleton, UInt64.ofNat_add,
            UInt64.add_assoc]
          rfl
        · intro j thread previous hj
          rw [List.getElem?_append] at hj
          split at hj
          · exact hdraws j thread previous hj
          · -- the draw of this step
            rename_i hlength
            obtain ⟨hlast, heq⟩ := List.getElem?_eq_some_iff.mp hj
            have hj' : j = (draws w).length := by
              rw [List.length_singleton] at hlast
              omega
            rw [List.getElem_singleton, Prod.mk.injEq] at heq
            rw [hj', ← hcount, heq.2]

/-! ## The generations -/

/-- `drawGeneration` is the low half of the incremented counter, with one in the place of zero. -/
theorem toNat_drawGeneration (start : UInt64) (i : Nat) :
    (drawGeneration (start + UInt64.ofNat i)).toNat =
      if (start.toNat + i + 1) % 2 ^ 32 = 0 then 1 else (start.toNat + i + 1) % 2 ^ 32 := by
  have hlow : ((start + UInt64.ofNat i) + 1).toUInt32.toNat = (start.toNat + i + 1) % 2 ^ 32 := by
    rw [UInt64.toNat_toUInt32, UInt64.toNat_add, UInt64.toNat_add, UInt64.toNat_ofNat',
      UInt64.toNat_one]
    omega
  rw [drawGeneration]
  by_cases hzero : ((start + UInt64.ofNat i) + 1).toUInt32 = 0
  · have hzero' : (start.toNat + i + 1) % 2 ^ 32 = 0 := by
      rw [← hlow, hzero]
      rfl
    rw [if_pos hzero, if_pos hzero']
    rfl
  · have hzero' : ¬ (start.toNat + i + 1) % 2 ^ 32 = 0 := by
      rw [← hlow]
      exact fun h => hzero (UInt32.toNat_inj.mp h)
    rw [if_neg hzero, if_neg hzero', hlow]

theorem drawGeneration_ne_zero (previous : UInt64) : drawGeneration previous ≠ 0 := by
  rw [drawGeneration]
  split
  · exact fun h => (nomatch h)
  · assumption

/-- Two draws less than a round apart meet in one case only: the first gets one for zero, and the
second is the next. -/
theorem drawGeneration_eq_iff {start : UInt64} {i j : Nat} (hlt : i < j) (hwindow : j - i ≤ 2 ^ 32 - 2) :
    drawGeneration (start + UInt64.ofNat i) = drawGeneration (start + UInt64.ofNat j) ↔
      j = i + 1 ∧ (start.toNat + i + 1) % 2 ^ 32 = 0 := by
  rw [← UInt32.toNat_inj, toNat_drawGeneration, toNat_drawGeneration]
  split <;> split <;> omega

theorem encodeFlowStateKey_inj {flowId : UInt64} {generation generation' : UInt32} :
    encodeFlowStateKey flowId generation = encodeFlowStateKey flowId generation' ↔
      generation = generation' := by
  refine ⟨fun h => ?_, fun h => by rw [h]⟩
  have hkey := congrArg FlowStateKey.unpack h
  rw [encodeFlowStateKey, encodeFlowStateKey, FlowStateKey.unpack_packIdentity,
    FlowStateKey.unpack_packIdentity] at hkey
  exact congrArg FlowStateKey.generation hkey

/-! ## Creations

Along every path of a program, a record is inserted with a target that a configuration read on the path
gives, and under a generation that was drawn on the path. -/

/-- An operation that inserts no record. -/
def CreatesNothing (op : Op) : Prop := ∀ key candidate, op ≠ .update .flowState key candidate .noexist

/-- Where a candidate comes from: a packet whose target is the one that a configuration among the
answers gives for it, and a draw among the answers. -/
def Sourced (answers : List (Answer Op Resp)) (key : FlowStateKey) (candidate : FlowStateValue) :
    Prop :=
  ∃ packet config target targetPort previous now,
    ⟨.configLookup, some config⟩ ∈ answers ∧ ⟨.generationAdd, previous⟩ ∈ answers ∧
    config.targetFor packet = some (target, targetPort) ∧
    candidate = makeCandidate packet (packetKey packet) target targetPort
      (tupleHash (packetKey packet)) (drawGeneration previous) now ∧
    key = stateKeyOf candidate.flowId candidate.generation

/-- The insert of a record is `Sourced` among the answers. -/
def HasSource (answers : List (Answer Op Resp)) (a : Answer Op Resp) : Prop :=
  ∀ key candidate, a.1 = .update .flowState key candidate .noexist → Sourced answers key candidate

section Footprints

variable {op : Op} {key : FlowStateKey}

theorem CreatesNothing.hasSource (h : CreatesNothing op) {answers : List (Answer Op Resp)}
    (resp : Resp op) : HasSource answers ⟨op, resp⟩ :=
  fun key candidate hop => absurd hop (h key candidate)

theorem createsNothing_of_readOp (h : ReadOp op) : CreatesNothing op := by
  cases h <;> rintro key candidate ⟨⟩

theorem createsNothing_of_slotOp (h : SlotOp op) : CreatesNothing op := by
  cases h with
  | read h => exact createsNothing_of_readOp h
  | _ => rintro key candidate ⟨⟩

theorem createsNothing_of_admitOp (h : AdmitOp key op) : CreatesNothing op := by
  cases h with
  | guard h =>
    cases h with
    | read h => exact createsNothing_of_readOp h
    | _ => rintro key candidate ⟨⟩
  | _ => rintro key candidate ⟨⟩

theorem createsNothing_of_hostOp (h : HostOp key op) : CreatesNothing op := by
  cases h with
  | index h => cases h <;> rintro key candidate ⟨⟩
  | _ => rintro key candidate ⟨⟩

/-- The `CreateOp`s of a candidate insert no record but the candidate. -/
theorem eq_of_createOp {candidate candidate' : FlowStateValue} (h : CreateOp candidate op)
    (hop : op = .update .flowState key candidate' .noexist) :
    candidate' = candidate ∧ key = stateKeyOf candidate.flowId candidate.generation := by
  subst hop
  cases h with
  | slot h => exact absurd rfl (createsNothing_of_slotOp h key candidate')
  | insertState => exact ⟨rfl, rfl⟩

end Footprints

section Sources

variable {α : Type} {slots : Slots} {answers : List (Answer Op Resp)}

/-- A program that has the sources of the records it inserts, when its answers are among `answers`. -/
abbrev HasSources (answers : List (Answer Op Resp)) (p : Prog α) : Prop :=
  p.Given (· ∈ answers) (HasSource answers)

theorem hasSources_of_all {p : Prog α} (hp : p.All CreatesNothing) : HasSources answers p :=
  .of_all (hp.mono fun _ hop => hop.hasSource)

theorem hasSources_of_reads {p : Prog α} (hp : p.All ReadOp) : HasSources answers p :=
  hasSources_of_all (hp.mono fun _ => createsNothing_of_readOp)

/-- `createToward` has the configuration that its target was read from, and the generation it drew. -/
theorem hasSources_createToward (hslots : slots.Proper) {packet : PacketInfo}
    {config : RuntimeConfigValue} {target : Address} {targetPort : UInt16}
    (hconfig : ⟨.configLookup, some config⟩ ∈ answers)
    (htarget : config.targetFor packet = some (target, targetPort)) :
    HasSources answers (createToward slots packet (packetKey packet) target targetPort) := by
  have hread : ∀ {op}, ReadOp op → ∀ resp, HasSource answers ⟨op, resp⟩ := fun h =>
    (createsNothing_of_readOp h).hasSource
  refine .perform (hread (.arrayLookup _)) fun scratch _ => ?_
  cases scratch with
  | false => trivial
  | true =>
    refine .perform (hread (.arrayLookup _)) fun counter _ => ?_
    cases counter with
    | false => trivial
    | true =>
      refine .perform (CreatesNothing.hasSource (by rintro key candidate ⟨⟩)) fun previous hdraw =>
        .perform (hread .ktime) fun now _ => ?_
      refine (hasSources_of_all (hslots.reserve.mono fun _ => createsNothing_of_slotOp)).bind
        fun reserved => ?_
      cases reserved with
      | false => exact hasSources_of_reads all_dropCreation
      | true =>
        refine .of_all ((all_insertFlow hslots _).mono fun op hop resp key candidate heq => ?_)
        obtain ⟨rfl, rfl⟩ := eq_of_createOp hop heq
        exact ⟨packet, config, target, targetPort, previous, now, hconfig, hdraw, htarget, rfl,
          rfl⟩

theorem hasSources_createFlow (hslots : slots.Proper) (packet : PacketInfo) :
    HasSources answers (createFlow slots packet (packetKey packet)) := by
  refine .perform (createsNothing_of_readOp .configLookup).hasSource fun config hconfig => ?_
  have hmiss : HasSources answers (do
      incrementCounter .targetMiss
      pure (.verdict .ok) : Prog Resolution) :=
    hasSources_of_reads ((all_incrementCounter _).bind fun _ => trivial)
  cases config with
  | none => exact hmiss
  | some config =>
    dsimp only [Option.bind_some]
    cases htarget : config.targetFor packet with
    | none => exact hmiss
    | some target => exact hasSources_createToward hslots hconfig htarget

theorem hasSources_processPacket (hslots : slots.Proper) (frame : List UInt8) (ingress : Bool) :
    HasSources answers (processPacket slots frame ingress) := by
  unfold processPacket
  cases parsePacket frame with
  | none => trivial
  | some packet =>
    refine (hasSources_of_reads (all_isControlPacket packet ingress)).bind fun control => ?_
    cases control with
    | true => exact hasSources_of_reads ((all_incrementCounter _).bind fun _ => trivial)
    | false =>
      refine Program.Given.bind ?_ fun resolution => ?_
      · refine .perform (createsNothing_of_readOp (.lookup (by decide) _)).hasSource
          fun index _ => ?_
        cases index with
        | some index => trivial
        | none =>
          cases ingress with
          | false => trivial
          | true => exact hasSources_createFlow hslots packet
      · cases resolution with
        | verdict action => trivial
        | index index =>
          refine .perform (createsNothing_of_admitOp .resolve).hasSource fun state _ => ?_
          cases state with
          | none => trivial
          | some state =>
            dsimp only
            split
            · exact hasSources_of_all ((all_admitPacket frame packet ingress _).mono fun _ =>
                createsNothing_of_admitOp)
            · trivial

/-- `HasSources` for every job: the calls of the host insert nothing. -/
theorem hasSources_code (hslots : slots.Proper) (job : Job) : HasSources answers (job.code slots) := by
  cases job with
  | packet frame ingress =>
    exact (hasSources_processPacket hslots frame ingress).bind fun _ => trivial
  | delete flowId generation observed deadline =>
    exact hasSources_of_all (((all_deleteFlow flowId generation observed deadline).mono fun _ =>
      createsNothing_of_hostOp).bind fun _ => trivial)
  | setConfig config =>
    refine hasSources_of_all (((all_setRuntimeConfig config).mono ?_).bind fun _ => trivial)
    rintro op ⟨value, rfl⟩ key candidate ⟨⟩
  | listFlows =>
    refine hasSources_of_all ((all_listFlowStates.mono ?_).bind fun _ => trivial)
    rintro op rfl key candidate ⟨⟩

end Sources

/-- In every interleaving, the record that a thread inserts is `Sourced` in what the thread was
answered. -/
theorem sourced_of_insert {slots : Slots} (hslots : slots.Proper) {s : Maps}
    (hreach : (system slots).Reachable (World.start s) w) {e : SystemEvent} (he : e ∈ w.history)
    {candidate : FlowStateValue} (hop : e.op = .update .flowState key candidate .noexist) :
    Sourced (w.answers e.thread) key candidate := by
  obtain ⟨t, ht, -⟩ := hreach.job_eq e he
  exact (hreach.path ht).given (hasSources_code hslots t.job) (fun _ ha => ha) ⟨e.op, e.resp⟩
    (World.mem_answers_iff.mpr ⟨e, he, rfl, rfl⟩) key candidate hop

theorem insert_of_creates {op : Op} {resp : Resp op} (h : creates key op resp = true) :
    ∃ candidate, op = .update .flowState key candidate .noexist := by
  cases op
  case update m key' value flag =>
      cases m <;> cases flag <;> first | cases h | skip
      simp only [creates, Bool.and_eq_true, decide_eq_true_eq] at h
      exact ⟨value, by rw [h.2]⟩
  all_goals cases h

/-- **A creation inserts its record under a generation that its own thread drew.** -/
theorem generation_of_creates {slots : Slots} (hslots : slots.Proper) {s : Maps}
    (hreach : (system slots).Reachable (World.start s) w) {e : SystemEvent} (he : e ∈ w.history)
    (hcreates : creates key e.op e.resp = true) :
    ∃ (i : Nat) (previous : UInt64), (draws w)[i]? = some (e.thread, previous) ∧
      key.generation = drawGeneration previous := by
  obtain ⟨candidate, hop⟩ := insert_of_creates hcreates
  obtain ⟨_, _, _, _, previous, _, -, hdraw, -, rfl, rfl⟩ := sourced_of_insert hslots hreach he hop
  obtain ⟨e', he', hthread, hanswer⟩ := World.mem_answers_iff.mp hdraw
  have hmem : (e.thread, previous) ∈ draws w := by
    refine List.mem_filterMap.mpr ⟨e', List.mem_reverse.mpr he', ?_⟩
    obtain ⟨thread, job, choice, op, resp, before⟩ := e'
    cases hanswer
    rw [hthread]
    rfl
  obtain ⟨i, hi⟩ := List.mem_iff_getElem?.mp hmem
  exact ⟨i, previous, hi, rfl⟩

/-- In every interleaving, from every value of the counter, a record is inserted under a generation
that its creator drew, and two draws at most `2 ^ 32 - 2` apart give nonzero generations. They share no
key exactly unless they are consecutive and the first incremented the counter to a multiple of
`2 ^ 32`. -/
theorem generations_differ_iff {slots : Slots} (hslots : slots.Proper) {s : Maps} {w : SystemWorld}
    (hreach : (system slots).Reachable (World.start s) w) :
    (∀ e ∈ w.history, ∀ key, creates key e.op e.resp = true →
      ∃ (i : Nat) (previous : UInt64), (draws w)[i]? = some (e.thread, previous) ∧
        key.generation = drawGeneration previous) ∧
    ∀ (i j thread thread' : Nat) (previous previous' : UInt64),
      (draws w)[i]? = some (thread, previous) →
      (draws w)[j]? = some (thread', previous') → i < j → j - i ≤ 2 ^ 32 - 2 →
      drawGeneration previous ≠ 0 ∧ drawGeneration previous' ≠ 0 ∧
        ((∀ flowId, encodeFlowStateKey flowId (drawGeneration previous) ≠
            encodeFlowStateKey flowId (drawGeneration previous')) ↔
          ¬ (j = i + 1 ∧ (s.generation.toNat + i + 1) % 2 ^ 32 = 0)) := by
  constructor
  · intro e he key hcreates
    exact generation_of_creates hslots hreach he hcreates
  · intro i j thread thread' previous previous' hi hj hlt hwindow
    have hnumbered := (draws_numbered hreach).2
    refine ⟨drawGeneration_ne_zero _, drawGeneration_ne_zero _, ?_⟩
    rw [hnumbered i thread previous hi, hnumbered j thread' previous' hj,
      ← drawGeneration_eq_iff hlt hwindow]
    simp only [ne_eq, encodeFlowStateKey_inj, forall_const]

/-- A flow is created, deleted and created again. -/
def recreation : List (Action Job Choice) :=
  .spawn (.packet sampleFrame true) :: List.replicate 26 (.step 0 {}) ++
    .spawn (.delete sampleFlow.flowId 1 0 100) :: List.replicate 22 (.step 1 {}) ++
    .spawn (.packet sampleFrame true) :: List.replicate 10 (.step 2 {})

/-- Two incarnations of the sample flow have keys of their own. -/
theorem generations_differ_iff_recreated : ∃ w : SystemWorld,
    (system Slots.atomic).Reachable (World.start (Maps.initial sampleConfig)) w ∧
      draws w = [(0, 0), (2, 1)] ∧
      encodeFlowStateKey sampleFlow.flowId (drawGeneration 0) ≠
        encodeFlowStateKey sampleFlow.flowId (drawGeneration 1) := by
  have hrun : ((system Slots.atomic).run (World.start (Maps.initial sampleConfig)) recreation).any
      (fun w => draws w = [(0, 0), (2, 1)]) = true := by
    decide +kernel
  obtain ⟨w, hreach, hdraws⟩ := Pool.exists_reachable_of_run hrun
  have hdraws : draws w = [(0, 0), (2, 1)] := of_decide_eq_true hdraws
  have hdiffer := (generations_differ_iff Slots.proper_atomic hreach).2 0 1 0 2 0 1
    (by rw [hdraws]; rfl) (by rw [hdraws]; rfl) (by decide) (by decide)
  exact ⟨w, hreach, hdraws, hdiffer.2.2.mpr (by decide) _⟩

/-- **Two incarnations of one flow share a key.** The counter stands at `2 ^ 32 - 1` when the flow is
created: its generation is one in the place of zero, and after the deletion the next creation draws
one as well. -/
theorem generation_repeats : ∃ w : SystemWorld,
    (system Slots.atomic).Reachable
      (World.start { Maps.initial sampleConfig with generation := 4294967295 }) w ∧
      draws w = [(0, 4294967295), (2, 4294967296)] ∧
      ∀ thread ∈ [0, 2], ∃ e ∈ w.history, e.thread = thread ∧
        creates (stateKeyOf sampleFlow.flowId 1) e.op e.resp = true := by
  have hrun : ((system Slots.atomic).run
      (World.start { Maps.initial sampleConfig with generation := 4294967295 }) recreation).any
      (fun w => draws w = [(0, 4294967295), (2, 4294967296)] && [0, 2].all fun thread =>
        w.history.any fun e => e.thread = thread &&
          creates (stateKeyOf sampleFlow.flowId 1) e.op e.resp) = true := by
    decide +kernel
  obtain ⟨w, hreach, hcheck⟩ := Pool.exists_reachable_of_run hrun
  simp only [Bool.and_eq_true, decide_eq_true_eq, List.all_eq_true, List.any_eq_true] at hcheck
  exact ⟨w, hreach, hcheck⟩

end ShadowSocketProxy.Flows
