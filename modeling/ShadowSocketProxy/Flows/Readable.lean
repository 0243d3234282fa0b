import ShadowSocketProxy.Flows.Runs

/-! # Records the control plane can read

The decoder of the control plane rejects zero ports and unspecified addresses; the packet path does
not. A record decodes exactly when the frame that created it had neither, and the target never
matters. -/

namespace ShadowSocketProxy.Flows

open Interleaving Bpf Alone ControlService
open Interleaving.Program (FailsOnly)
open Interleaving.Machine (wp_mono wp_seq wp_seqE wp_and_yields wp_of_yields)

/-! ## Validation -/

/-- A tuple without zero ports and unspecified addresses. -/
structure Addressed (t : TupleKey) : Prop where
  sourcePort : t.sourcePort ≠ 0
  destinationPort : t.destinationPort ≠ 0
  source : (addressOf t.family t.source).isUnspecified = false
  destination : (addressOf t.family t.destination).isUnspecified = false

theorem validate_tupleOf {t : TupleKey} (hproto : t.protocol = ipprotoTcp ∨ t.protocol = ipprotoUdp) :
    (tupleOf t).validate = .ok () ↔ Addressed t := by
  have hfamily : (tupleOf t).source.isIpv4 = (tupleOf t).destination.isIpv4 := by
    simp [tupleOf]
  have hvalid : validateProtocol (tupleOf t).protocol = .ok () := if_pos hproto
  rw [Tuple.validate, ite_error_eq_ok, bind_eq_ok, hvalid]
  constructor
  · rintro ⟨-, a, -, h⟩
    obtain ⟨hports, h⟩ := ite_error_eq_ok.mp h
    obtain ⟨haddresses, -⟩ := ite_error_eq_ok.mp h
    rw [not_or] at hports haddresses
    exact ⟨hports.1, hports.2, Bool.eq_false_iff.mpr haddresses.1, Bool.eq_false_iff.mpr haddresses.2⟩
  · intro h
    refine ⟨not_not.mpr hfamily, (), rfl, ite_error_eq_ok.mpr ⟨?_, ite_error_eq_ok.mpr ⟨?_, rfl⟩⟩⟩
    · exact not_or.mpr ⟨h.sourcePort, h.destinationPort⟩
    · exact not_or.mpr ⟨Bool.eq_false_iff.mp h.source, Bool.eq_false_iff.mp h.destination⟩

section Record

variable {record : FlowStateValue} (hrecord : WellFormed record)

include hrecord

/-- The tuples of a record are `Addressed` as the original one is. -/
theorem WellFormed.addressed (h : Addressed record.original) :
    Addressed record.target ∧ Addressed record.reverse := by
  rw [hrecord.target, hrecord.reverse]
  exact ⟨⟨h.sourcePort, hrecord.usablePort, h.source, hrecord.usableAddress⟩,
    ⟨hrecord.usablePort, h.sourcePort, hrecord.usableAddress, h.source⟩⟩

theorem WellFormed.validate_iff :
    (flowStateOf record .active).validate = .ok () ↔ Addressed record.original := by
  have htarget : record.target.protocol = record.original.protocol := by rw [hrecord.target]
  have hreverse : record.reverse.protocol = record.original.protocol := by rw [hrecord.reverse]
  have hfamily : record.target.family = record.original.family := by rw [hrecord.target]
  have hfamily' : record.reverse.family = record.original.family := by rw [hrecord.reverse]
  constructor
  · intro h
    obtain ⟨_, h, -⟩ := bind_eq_ok.mp h
    exact (validate_tupleOf hrecord.protocol).mp h
  · intro h
    obtain ⟨h₁, h₂⟩ := hrecord.addressed h
    refine bind_eq_ok.mpr ⟨(), (validate_tupleOf hrecord.protocol).mpr h, ?_⟩
    refine bind_eq_ok.mpr ⟨(), (validate_tupleOf (htarget ▸ hrecord.protocol)).mpr h₁, ?_⟩
    refine bind_eq_ok.mpr ⟨(), (validate_tupleOf (hreverse ▸ hrecord.protocol)).mpr h₂, ?_⟩
    simp [flowStateOf, tupleOf, htarget, hreverse, hfamily, hfamily']

/-- What a `WellFormed` record decodes to, if it decodes. -/
theorem WellFormed.decode_eq :
    decodeFlowState record.pack =
      (flowStateOf record .active).validate >>= fun _ => pure (flowStateOf record .active) := by
  have hcanonical : ∀ t ∈ tuplesOf record, Versioned t := fun t ht =>
    (hrecord.canonical t ht).toVersioned
  rw [decodeFlowState_pack (hcanonical _ (by simp [tuplesOf])) (hcanonical _ (by simp [tuplesOf]))
    (hcanonical _ (by simp [tuplesOf])), hrecord.active]
  rfl

/-- **A record decodes to what it holds exactly when its original tuple is `Addressed`.** -/
theorem WellFormed.decode_iff :
    decodeFlowState record.pack = .ok (flowStateOf record .active) ↔ Addressed record.original := by
  rw [hrecord.decode_eq, bind_eq_ok, ← hrecord.validate_iff]
  exact ⟨fun ⟨_, h, _⟩ => h, fun h => ⟨(), h, rfl⟩⟩

end Record

/-! ## Failures of the host -/

/-- The error of a failed map call. -/
def FromMap (e : BackendError) : Prop := ∃ error, e = mapError error

/-- A failed map call, alone or with what else failed at the end of a round. -/
inductive FailedCall : BackendError → Prop
  | map (error : MapError) : FailedCall (mapError error)
  | cleanup (error : MapError) (failures : List String) :
      FailedCall (.operation "flow-delete:operation-cleanup"
        ((mapError error).message ++ "; " ++ "; ".intercalate failures))

section Failures

variable {key : FlowStateKey} {expected : ControlService.FlowIndexValue}

theorem failsOnly_getOption (m : MapId) (key : m.Key) : FailsOnly FromMap (getOption m key) := by
  intro resp e he
  rcases resp with (_ | _ | call) | value
  · cases he
  · cases he
  · exact ⟨_, (Except.error.inj he).symm⟩
  · cases he

theorem failsOnly_insertKey (m : MapId) (key : m.Key) (value : m.Val) (flag : UpdateFlag) :
    FailsOnly FromMap (insertKey m key value flag) := by
  intro resp e he
  cases resp with
  | error error => exact ⟨error, (Except.error.inj he).symm⟩
  | ok => cases he

theorem failsOnly_removeKey (m : MapId) (key : m.Key) : FailsOnly FromMap (removeKey m key) := by
  intro resp e he
  cases resp with
  | error error => exact ⟨error, (Except.error.inj he).symm⟩
  | ok => cases he

theorem failsOnly_armGuard (deadline : UInt64) : FailsOnly FromMap (armGuard key deadline) :=
  (failsOnly_attempt _).bind fun _ => (failsOnly_insertKey _ _ _ _).bind fun _ _ he => (nomatch he)

theorem failsOnly_installGuard (deadline : UInt64) :
    FailsOnly FromMap (installGuard key deadline) := by
  refine (failsOnly_getOption _ _).bind fun existing => ?_
  cases existing with
  | none => exact failsOnly_armGuard deadline
  | some old =>
    refine FailsOnly.bind (fun resp e he => (nomatch he)) fun now => ?_
    split
    · exact fun e he => (nomatch he)
    · exact (failsOnly_removeKey _ _).bind fun _ => failsOnly_armGuard deadline

theorem failsOnly_pollQuiescent (attempts : Nat) :
    FailsOnly FromMap (pollQuiescent key attempts) := by
  induction attempts with
  | zero => exact fun e he => (nomatch he)
  | succ attempts ih =>
    refine FailsOnly.bind ((failsOnly_getOption _ _).bind fun _ _ he => (nomatch he)) fun count => ?_
    split
    · exact fun e he => (nomatch he)
    · exact ih

theorem failsOnly_commitDeletion : FailsOnly FromMap (commitDeletion key) := by
  refine FailsOnly.bind (p := readStable key) ?_ fun stable => ?_
  · refine (failsOnly_pollQuiescent _).bind fun quiescent => ?_
    split
    · exact failsOnly_getOption _ _
    · exact fun e he => (nomatch he)
  · cases stable with
    | none => exact fun e he => (nomatch he)
    | some record =>
      refine (failsOnly_attempt _).bind fun committed => ?_
      cases committed with
      | error error => exact fun e he => (nomatch he)
      | ok =>
        refine (failsOnly_pollQuiescent _).bind fun quiescent => ?_
        split
        · refine (failsOnly_getOption _ _).bind fun committed => ?_
          cases committed <;> exact fun e he => (nomatch he)
        · exact fun e he => (nomatch he)

theorem failsOnly_finishCleanup (tuples : List TupleKey) (stateDeleted staleGeneration : Bool) :
    FailsOnly FromMap (finishCleanup expected key tuples stateDeleted staleGeneration) := by
  refine (failsOnly_removeIndexes tuples).bind fun counts => (failsOnly_attempt _).bind fun _ =>
    FailsOnly.bind ?_ fun _ _ he => (nomatch he)
  refine (failsOnly_getOption _ _).bind fun pending => ?_
  cases pending with
  | none => exact fun e he => (nomatch he)
  | some pending =>
    intro resp e he
    cases resp <;> cases he

theorem failsOnly_removeRecord (tuples : List TupleKey) :
    FailsOnly FromMap (removeRecord expected key tuples) := by
  refine (failsOnly_insertKey _ _ _ _).bind fun _ => (failsOnly_attempt _).bind fun removed => ?_
  cases removed with
  | ok => exact failsOnly_finishCleanup tuples true false
  | error error =>
    exact (failsOnly_attempt _).bind fun _ => (failsOnly_getOption _ _).bind fun _ _ he =>
      (nomatch he)

theorem failsOnly_cleanupRecord {record : FlowStateValue} {flow : FlowState}
    (hdecode : decodeFlowState record.pack = .ok flow) (observed : UInt64) :
    FailsOnly FromMap (cleanupRecord expected key observed record) := by
  unfold cleanupRecord
  rw [hdecode]
  simp only [decoded, pure_bind]
  split
  · rintro e ⟨⟩
  · exact failsOnly_removeRecord _

end Failures

/-! ## Calls on readable records -/

/-- Every record decodes. -/
def Readable (s : Maps) : Prop :=
  ∀ key record, s.find .flowState key = some record → ∃ flow, decodeFlowState record.pack = .ok flow

section Calls

variable {allowed : Choice → Prop} {s : Maps} {key : FlowStateKey}
  {expected : ControlService.FlowIndexValue}

theorem fails_listFlowStates (hs : Readable s) :
    Ensures allowed listFlowStates.run (fun r _ => ∀ e, r = .error e → FromMap e) s := by
  refine ensures_iterate ?_ fun _ error e he => ⟨error, (Except.error.inj he).symm⟩
  have hdecode : ∀ entry ∈ (s.tables .flowState).pairs, ∃ flow,
      decodeFlowState entry.2.pack = .ok flow := fun entry hentry =>
    hs entry.1 entry.2 (Table.mem_pairs_iff.mp hentry)
  obtain ⟨flows, hflows⟩ := exists_mapM_ok hdecode
  rw [hflows]
  exact fun e he => (nomatch he)

theorem fails_guardedCleanup (hs : Readable s) (observed : UInt64) :
    Ensures allowed (guardedCleanup expected key observed).run
      (fun r _ => ∀ e, r = .error e → FromMap e) s := by
  unfold guardedCleanup
  refine wp_seqE (wp_and_yields ensures_commitDeletion failsOnly_commitDeletion)
    (fun commit s₁ ⟨⟨_, hflow, _⟩, _⟩ => ?_) fun e s₁ ⟨_, hfails⟩ e' he' => ?_
  · cases commit with
    | report report => exact fun e he => (nomatch he)
    | flow record =>
      obtain ⟨flow, hdecode⟩ := hs key record (hflow record rfl)
      exact wp_of_yields (failsOnly_cleanupRecord hdecode observed)
  · cases he'
    exact hfails e rfl

/-- The end of a round is a `FailedCall` when its cleanup fails `FromMap`. -/
theorem failedCall_of_conclude {cleanup : Except BackendError FlowCleanupReport}
    {failures : List String} (h : ∀ e, cleanup = .error e → FromMap e) {e : BackendError}
    (he : concludeDeletion cleanup failures = .error e) : FailedCall e := by
  cases cleanup with
  | ok report =>
    simp only [concludeDeletion] at he
    split at he <;> cases he
  | error error =>
    obtain ⟨mapError', rfl⟩ := h error rfl
    simp only [concludeDeletion] at he
    split at he
    · cases he
      exact .map mapError'
    · cases he
      exact .cleanup mapError' failures

theorem fails_guardedRound (hs : Readable s) (observed : UInt64) :
    Ensures allowed (guardedRound expected key observed).run
      (fun r _ => ∀ e, r = .error e → FailedCall e) s := by
  unfold guardedRound
  refine ensures_attempt (fails_guardedCleanup hs observed) fun cleanup s₁ h => ?_
  refine ensures_attempt ensures_removeIfPresent fun _ s₂ _ => ?_
  refine ensures_attempt ensures_removeIfPresent fun _ s₃ _ => ?_
  exact fun e he => failedCall_of_conclude h he

theorem fails_decodedIndexes (hs : Decodable s) :
    Ensures allowed decodedIndexes.run (fun r s' => s' = s ∧ ∀ e, r = .error e → FromMap e) s := by
  refine ensures_iterate ?_ fun _ error => ⟨rfl, fun e he => ⟨error, (Except.error.inj he).symm⟩⟩
  rw [mapM_decodeFlowIndex hs]
  exact ⟨rfl, fun e he => (nomatch he)⟩

theorem fails_cleanupAbsent (hs : Decodable s) :
    Ensures allowed (cleanupAbsent expected key).run (fun r _ => ∀ e, r = .error e → FromMap e)
      s := by
  unfold cleanupAbsent
  refine wp_seqE (fails_decodedIndexes hs) (fun _ s₁ ⟨hs₁, _⟩ => ?_) fun e s₁ ⟨_, h⟩ e' he' => ?_
  · subst hs₁
    refine wp_seqE (fails_decodedIndexes hs) (fun _ s₂ _ => ?_) fun e s₁ ⟨_, h⟩ e' he' => ?_
    · exact wp_of_yields (failsOnly_finishCleanup _ _ _)
    · cases he'
      exact h e rfl
  · cases he'
    exact h e rfl

/-- **On `Readable` records `delete_flow` fails only with a `FailedCall`.** -/
theorem fails_deleteFlow (hs : Readable s) (hindexes : Decodable s) (flowId : UInt64)
    (generation : UInt32) (observed deadline : UInt64) :
    Ensures allowed (deleteFlow flowId generation observed deadline).run
      (fun r _ => ∀ e, r = .error e → FailedCall e) s := by
  have hmap : ∀ e, FromMap e → FailedCall e := by
    rintro _ ⟨error, rfl⟩
    exact .map error
  unfold deleteFlow
  simp only [unpack_encodeFlowStateKey]
  refine wp_seqE (wp_and_yields ensures_getOption (failsOnly_getOption _ _))
    (fun initial s₁ ⟨⟨hs₁, _⟩, _⟩ => ?_) fun e s₁ ⟨_, h⟩ e' he' => ?_
  · subst hs₁
    cases initial with
    | none =>
      refine ensures_attempt ensures_gone fun _ s₂ hguard => ?_
      refine ensures_attempt ensures_gone fun _ s₃ houtcome => ?_
      have haside := (aside_of_gone hguard houtcome).1
      refine wp_mono (fails_cleanupAbsent fun t index hindex => ?_) fun r _ h e he => hmap e (h e he)
      exact hindexes t index ((haside.index t).symm.trans hindex)
    | some record =>
      refine wp_seqE (wp_and_yields (ensures_installGuard deadline) (failsOnly_installGuard deadline))
        (fun armed s₂ ⟨⟨haside, _⟩, _⟩ => ?_) fun e s₂ ⟨_, h⟩ e' he' => ?_
      · cases armed with
        | false => exact fun e he => (nomatch he)
        | true =>
          refine fails_guardedRound (fun key record hrecord => ?_) observed
          exact hs key record ((haside.state key).symm.trans hrecord)
      · cases he'
        exact hmap e (h e rfl)
  · cases he'
    exact hmap e (h e rfl)

end Calls

/-! ## Runs -/

/-- Every frame that is about to create a flow is well addressed: it comes from the forward side, is
no control traffic, is not indexed and has a target. -/
def CreatesAddressed (job : Job) (s : Maps) : Prop :=
  ∀ frame packet, job = .packet frame true → parsePacket frame = some packet →
    s.runtimeConfig.controls packet true = false → s.find .flowIndex (packetKey packet) = none →
    (s.runtimeConfig.targetFor packet).isSome → Addressed (packetKey packet)

/-- The flow a frame creates is `Addressed` as the frame is. -/
theorem addressed_of_born {s : Maps} {job : Job} {record : FlowStateValue}
    (hjob : CreatesAddressed job s) (hborn : BornFrom s job record) : Addressed record.original := by
  obtain ⟨frame, ingress, rfl, packet, candidate, rfl, hparse, hcandidate, rfl⟩ := hborn
  obtain ⟨target, port, now, htarget, hmade⟩ := hcandidate.made
  have haddressed : Addressed (packetKey packet) :=
    hjob frame packet rfl hparse hcandidate.control hcandidate.free (by rw [htarget]; rfl)
  rw [hmade]
  exact haddressed

theorem addressed_of_serial {config : RuntimeConfigValue} {s : Maps}
    (hrun : machine.Serial (Job.code Slots.split) (fun _ _ => True) CreatesAddressed
      (Maps.initial config) s) :
    ∃ T, Represents s T ∧ ∀ key record, T.flows key = some record → Addressed record.original := by
  refine hrun.invariant (I := fun s => ∃ T, Represents s T ∧
    ∀ key record, T.flows key = some record → Addressed record.original)
    ⟨_, (tidy_initial config).toRepresents, fun _ _ h => (nomatch h)⟩ ?_
  rintro job value s₁ s₂ ⟨T, hT, haddressed⟩ hjob hret
  obtain ⟨T', hT', -, hgrown⟩ := hT.job hret
  refine ⟨T', hT', fun key record hf => ?_⟩
  obtain ⟨record₀, halike, hold | ⟨-, hborn⟩⟩ := hgrown key record hf
  · rw [halike.fields.1]
    exact haddressed key record₀ hold
  · rw [halike.fields.1]
    exact addressed_of_born hjob hborn

/-- **In a run whose creating frames are all well addressed, every record decodes to what it holds,
and neither an enumeration nor a deletion fails with a decoding error.** -/
theorem serial_records_readable {config : RuntimeConfigValue} {s : Maps}
    (hrun : machine.Serial (Job.code Slots.split) (fun _ _ => True) CreatesAddressed
      (Maps.initial config) s) :
    (∀ key record, s.find .flowState key = some record →
      decodeFlowState record.pack = .ok (flowStateOf record .active)) ∧
    (∀ result s', machine.Returns (fun _ => True) (Job.listFlows.code Slots.split) s
      (.flows result) s' → ∀ e, result = .error e → FailedCall e) ∧
    ∀ flowId generation observed deadline result s', machine.Returns (fun _ => True)
      ((Job.delete flowId generation observed deadline).code Slots.split) s (.report result) s' →
      ∀ e, result = .error e → FailedCall e := by
  obtain ⟨T, hT, haddressed⟩ := addressed_of_serial hrun
  have hdecode : ∀ key record, s.find .flowState key = some record →
      decodeFlowState record.pack = .ok (flowStateOf record .active) := by
    intro key record hrecord
    have hf : T.flows key = some record := (hT.state key).symm.trans hrecord
    exact (T.wellFormed hf).decode_iff.mpr (haddressed key record hf)
  have hreadable : Readable s := fun key record hrecord => ⟨_, hdecode key record hrecord⟩
  refine ⟨hdecode, fun result s' hret e he => ?_,
    fun flowId generation observed deadline result s' hret e he => ?_⟩
  · have hfails : ∃ r, (Outcome.flows result) = .flows r ∧ ∀ e, r = .error e → FromMap e :=
      hret.of_wp (Q := fun outcome _ => ∃ r, outcome = .flows r ∧ ∀ e, r = .error e → FromMap e)
        (wp_seq (fails_listFlowStates hreadable) fun r _ h => ⟨r, rfl, h⟩)
    obtain ⟨r, hr, hfails⟩ := hfails
    cases hr
    obtain ⟨error, rfl⟩ := hfails e he
    exact .map error
  · have hfails : ∃ r, (Outcome.report result) = .report r ∧ ∀ e, r = .error e → FailedCall e :=
      hret.of_wp (Q := fun outcome _ => ∃ r, outcome = .report r ∧ ∀ e, r = .error e → FailedCall e)
        (wp_seq (fails_deleteFlow hreadable hT.decodable flowId generation observed deadline)
          fun r _ h => ⟨r, rfl, h⟩)
    obtain ⟨r, hr, hfails⟩ := hfails
    cases hr
    exact hfails e he

/-- The settings of the sample, as the control service accepts them, and what it writes of them. -/
def sampleSettings : RuntimeConfig :=
  { RuntimeConfig.default with ipv4Target := some ⟨.v4 (ipv4 10 0 0 3), 3000⟩ }
def sampleSettingsValue : RuntimeConfigValue :=
  RuntimeConfigValue.unpack (runtimeConfigBytes sampleSettings 60000000000 30000000000)

/-- The sample datagram creates a flow that decodes. -/
theorem serial_records_readable_sample : ∃ s,
    machine.Serial (Job.code Slots.split) (fun _ _ => True) CreatesAddressed
      (Maps.initial sampleConfig) s ∧ s.size .flowState = 1 ∧
    ∀ key record, s.find .flowState key = some record →
      decodeFlowState record.pack = .ok (flowStateOf record .active) := by
  have hrun : (machine.run ((Job.packet sampleFrame true).code Slots.split) (List.replicate 29 {})
      (Maps.initial sampleConfig)).any (fun r => decide (r.2.1.size .flowState = 1)) = true := by
    decide +kernel
  obtain ⟨value, s, hret, hsize⟩ := Machine.exists_returns_of_run (M := machine) (fun _ => True)
    (fun _ s => decide (s.size .flowState = 1)) hrun fun _ _ => trivial
  have haddressed : CreatesAddressed (.packet sampleFrame true) (Maps.initial sampleConfig) := by
    intro frame packet hjob hparse _ _ _
    cases hjob
    have hsample : parsePacket sampleFrame = some samplePacket := by decide
    obtain rfl : samplePacket = packet := Option.some.inj (hsample.symm.trans hparse)
    exact ⟨by decide, by decide, by decide, by decide⟩
  have hserial : machine.Serial (Job.code Slots.split) (fun _ _ => True) CreatesAddressed
      (Maps.initial sampleConfig) s := .step .start haddressed hret
  exact ⟨s, hserial, of_decide_eq_true hsize, (serial_records_readable hserial).1⟩

/-- The sample datagram with source port zero. -/
def sampleZeroPort : List UInt8 := (sampleFrame.set 34 0).set 35 0

/-- What an enumeration ends with that runs into a zero port. -/
def sampleRefusal : Outcome :=
  .flows (.error (.operation "flow-state:decode" AbiError.zeroPort.message))

/-- Whether some record does not decode and an enumeration is refused. -/
def sampleUnreadable (s : Maps) : Bool :=
  (s.tables .flowState).pairs.any (fun entry => !(decodeFlowState entry.2.pack).isOk) &&
    (machine.run (Job.listFlows.code Slots.split) [{}] s).any fun r => decide (r.1 = sampleRefusal)

/-- **A frame with source port zero creates a record that does not decode**, and from then on every
enumeration fails. -/
theorem zeroPort_record_unreadable :
    sampleSettings.validateWithMaxima MapMaxima.default = .ok () ∧ ∃ s,
      machine.Serial (Job.code Slots.split) (fun _ _ => True) (fun _ _ => True)
        (Maps.initial sampleSettingsValue) s ∧
      (∃ key record, s.find .flowState key = some record ∧
        ∀ flow, decodeFlowState record.pack ≠ .ok flow) ∧
      ∃ s', machine.Returns (fun _ => True) (Job.listFlows.code Slots.split) s sampleRefusal s' := by
  have hrun : (machine.run ((Job.packet sampleZeroPort true).code Slots.split)
      (List.replicate 29 {}) (Maps.initial sampleSettingsValue)).any
        (fun r => sampleUnreadable r.2.1) = true := by
    decide +kernel
  obtain ⟨value, s, hret, hcheck⟩ := Machine.exists_returns_of_run (M := machine) (fun _ => True)
    (fun _ s => sampleUnreadable s) hrun fun _ _ => trivial
  rw [sampleUnreadable, Bool.and_eq_true, List.any_eq_true] at hcheck
  obtain ⟨⟨⟨key, record⟩, hentry, hbad⟩, hlist⟩ := hcheck
  obtain ⟨value', s', hret', hvalue⟩ := Machine.exists_returns_of_run (M := machine) (fun _ => True)
    (fun value _ => decide (value = sampleRefusal)) hlist fun _ _ => trivial
  obtain rfl := of_decide_eq_true hvalue
  refine ⟨by decide +kernel, s, .step .start trivial hret,
    ⟨key, record, Table.mem_pairs_iff.mp hentry, fun flow hflow => ?_⟩, s', hret'⟩
  rw [hflow] at hbad
  cases hbad

end ShadowSocketProxy.Flows
