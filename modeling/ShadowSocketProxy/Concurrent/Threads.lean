import ShadowSocketProxy.Concurrent.Phases
import ShadowSocketProxy.Alone.Deletion

/-! # Every thread follows the automaton

The packet path and the calls of the host, walked through once: whatever their operations are answered,
they go on by the transitions of `Concurrent.Phases`. -/

namespace ShadowSocketProxy.Concurrent

open Interleaving Bpf ControlService
open Interleaving.Program (Follows)
open Alone (keyOf ownerOf tuplesOf)

/-! ## Quiet operations of the programs -/

section Quiet

variable {op : Op} {key : FlowStateKey}

/-- A `ReadOp` is `Quiet`: no phase depends on it. -/
theorem quiet_of_readOp (h : ReadOp op) : Quiet op := by
  cases h <;> trivial

/-- A `GuardOp` is `Quiet`: the automaton follows no guard. -/
theorem quiet_of_guardOp (h : GuardOp key op) : Quiet op := by
  cases h with
  | read h => exact quiet_of_readOp h
  | abort | dropGuard => simp [Quiet]

/-- The operations `RoundOp` of a round of the host are `Quiet`. -/
theorem quiet_of_roundOp (h : RoundOp key op) : Quiet op := by
  cases h <;> simp [Quiet]

/-- `delete_owned_index` is `Quiet`: a packet that takes its own entry back changes no phase. -/
theorem all_quiet_deleteOwnedIndex (tuple : TupleKey) (index : Bpf.FlowIndexValue) :
    (deleteOwnedIndex tuple index).All Quiet := by
  refine ⟨trivial, fun current => ?_⟩
  cases current with
  | none => trivial
  | some current =>
    exact Program.all_ite.mpr ⟨fun _ => ⟨by simp [Quiet], fun _ => trivial⟩, fun _ => trivial⟩

end Quiet

/-! ## The packet path -/

section Packets

variable {atomic host : Bool} {φ ψ : Phase} {β : Type}

/-- The program leads from one phase to another, whatever it is answered. -/
abbrev Leads (atomic host : Bool) (φ ψ : Phase) (p : Prog β) : Prop :=
  Follows (Step atomic host) (fun φ' _ => φ' = ψ) φ p

/-- A program of operations that do not matter. -/
theorem follows_quiet {p : Prog β} (hp : p.All Quiet) : Leads atomic host φ φ p :=
  Follows.of_all (fun _ hop _ => .quiet hop) hp

/-- A program of `ReadOp`s stays in its phase. -/
theorem follows_reads {p : Prog β} (hp : p.All ReadOp) : Leads atomic host φ φ p :=
  follows_quiet (hp.mono fun _ => quiet_of_readOp)

/-- One attempt of `release_flow_slot`. -/
theorem follows_attempt (h : Gives φ ψ) {attempts : Nat}
    (hfailed : ∀ current, ∃ φ', Step false host φ (.activeCas current (current - 1)) false φ' ∧
      Leads false host φ' ψ (releaseFlowSlotLoop attempts)) :
    Leads false host φ ψ (releaseFlowSlotLoop (attempts + 1)) := by
  refine Follows.perform fun current => ?_
  by_cases hzero : current = 0
  · refine ⟨ψ, .idle (.inl trivial) (.leak h rfl), ?_⟩
    simp only [hzero, if_true]
    exact rfl
  · refine ⟨φ, .quiet trivial, ?_⟩
    simp only [hzero, if_false]
    refine Follows.perform fun swapped => ?_
    cases swapped with
    | true => exact ⟨ψ, .back h current rfl, rfl⟩
    | false => exact hfailed current

/-- The attempts of `release_flow_slot`; the last one gives up. -/
theorem follows_releaseFlowSlotLoop (h : Gives φ ψ) (attempts : Nat) :
    Leads false host φ ψ (releaseFlowSlotLoop (attempts + 1)) := by
  induction attempts with
  | zero => exact follows_attempt h fun current => ⟨ψ, .idle (.inr rfl) (.leak h rfl), rfl⟩
  | succ attempts ih => exact follows_attempt h fun current => ⟨φ, .refused rfl, ih⟩

/-- `release_flow_slot` gives the slot back, or leaks it, and ends in the phase `ψ` of `Gives φ ψ`. -/
theorem follows_releaseFlowSlot (h : Gives φ ψ) : Leads false host φ ψ releaseFlowSlot := by
  refine Follows.perform fun present => ?_
  cases present with
  | false => exact ⟨ψ, .idle (.inl trivial) (.leak h rfl), rfl⟩
  | true => exact ⟨φ, .quiet trivial, follows_releaseFlowSlotLoop h 7⟩

/-- `consume_release` stays in `.reserving`: what it claims it releases. -/
theorem follows_consumeRelease (key : FlowStateKey) (config : Option RuntimeConfigValue) :
    Leads false host (.reserving key config) (.reserving key config) consumeRelease := by
  refine Follows.perform fun release => ?_
  cases release with
  | none => exact ⟨_, .refused rfl, rfl⟩
  | some release =>
    refine ⟨_, .pop key config release rfl, Follows.perform fun claimed => ?_⟩
    cases claimed with
    | false => exact ⟨_, .lose key config release rfl, rfl⟩
    | true =>
      exact ⟨_, .claim key config release rfl, follows_releaseFlowSlot (.refunding key config)⟩

/-- `reserve_flow_slot` goes from `.drawn key` to `.reserved key`, or to an end where it is refused.
-/
theorem follows_reserveFlowSlot (key : FlowStateKey) :
    Follows (Step false host) (fun φ' reserved => if reserved then φ' = .reserved key else φ'.isLast = true)
      (.drawn key) reserveFlowSlot := by
  refine Follows.keep (fun _ => .quiet trivial) fun present => ?_
  refine Follows.perform fun config => ⟨_, .learn trivial (.price key config), ?_⟩
  cases present with
  | false => exact rfl
  | true =>
    refine (follows_consumeRelease key config).seq fun _ => ?_
    refine Follows.perform fun previous => ⟨_, .take key config previous rfl, ?_⟩
    split
    · exact Follows.perform fun _ => ⟨_, .untake rfl, rfl⟩
    · exact rfl

/-- `follows_reserveFlowSlot` for either slot routine, the atomic one in a single step. -/
theorem follows_reserve (key : FlowStateKey) :
    Follows (Step atomic host)
      (fun φ' reserved => if reserved then φ' = .reserved key else φ'.isLast = true) (.drawn key)
      (slotsOf atomic).reserve := by
  cases atomic with
  | false => exact follows_reserveFlowSlot key
  | true =>
    refine fun done => ⟨_, .reserve key done rfl, ?_⟩
    cases done with
    | true => exact rfl
    | false => exact rfl

/-- Either release leads from `.vacating` back to `.calm`. -/
theorem follows_release : Leads atomic host .vacating .calm (slotsOf atomic).release := by
  cases atomic with
  | false => exact follows_releaseFlowSlot .vacating
  | true => exact fun _ => ⟨_, .release rfl, rfl⟩

/-! ### Creations -/

/-- Where a thread stands whose tuple is resolved. -/
def Resolves (tuple : TupleKey) (φ : Phase) : Resolution → Prop
  | .verdict _ => φ.isLast = true
  | .index index => φ = .resolved tuple index

/-- A creation that is dropped resolves nothing and stays where it may end. -/
theorem follows_dropCreation (tuple : TupleKey) (hφ : φ.isLast = true) :
    Follows (Step atomic host) (Resolves tuple) φ dropCreation :=
  (follows_reads (all_incrementCounter _)).seq fun _ => hφ

/-- The second look at the index ends in `Resolves tuple`. -/
theorem follows_resolveAgain (tuple : TupleKey) :
    Follows (Step atomic host) (Resolves tuple) .calm (resolveAgain tuple) := by
  refine Follows.perform fun index => ?_
  cases index with
  | none => exact ⟨_, .quiet trivial, follows_dropCreation tuple rfl⟩
  | some index => exact ⟨_, .learn trivial (.resolve tuple index), rfl⟩

/-- Its entries keep a creation in its phase, inserted or not. -/
theorem follows_insertEntries (candidate : FlowStateValue) :
    Leads atomic host (.creating candidate) (.creating candidate)
      (insertEntries (keyOf candidate) candidate (ownerOf candidate)) := by
  have hindex : ∀ tuple ∈ tuplesOf candidate, ∀ done, Step atomic host (.creating candidate)
      (.update .flowIndex tuple (ownerOf candidate) .noexist) done (.creating candidate) := by
    intro tuple ht done
    cases done with
    | true => exact .index candidate ht
    | false => exact .refused rfl
  refine Follows.keep (hindex _ (by simp [tuplesOf])) fun original => ?_
  cases original with
  | false => exact rfl
  | true =>
    refine Follows.keep (hindex _ (by simp [tuplesOf])) fun target => ?_
    cases target with
    | false => exact rfl
    | true =>
      refine Follows.keep (hindex _ (by simp [tuplesOf])) fun reverse => ?_
      cases reverse with
      | false => exact rfl
      | true => exact fun counted => ⟨_, .quiet (by simp [Quiet]), rfl⟩

/-- The rollback deletes the record of `candidate` and releases its slot: `.creating` to `.calm`. -/
theorem follows_rollBack (candidate : FlowStateValue) :
    Leads atomic host (.creating candidate) .calm
      (rollBack (slotsOf atomic) (keyOf candidate) candidate (ownerOf candidate)) := by
  have howned : ∀ tuple, Leads atomic host (.creating candidate) (.creating candidate)
      (deleteOwnedIndex tuple (ownerOf candidate)) := fun tuple =>
    follows_quiet (all_quiet_deleteOwnedIndex tuple _)
  refine (howned _).seq fun _ => (howned _).seq fun _ => (howned _).seq fun _ => ?_
  refine Follows.keep (fun _ => .quiet (by simp [Quiet])) fun _ => ?_
  exact Follows.perform fun done => ⟨_, .takeBack candidate done, follows_release⟩

/-- The creation after its reservation: it activates `candidate`, rolls it back or resolves again. -/
theorem follows_insertFlow (candidate : FlowStateValue)
    (hcreating : candidate.lifecycle = flowCreating) :
    Follows (Step atomic host) (Resolves candidate.original) (.reserved (keyOf candidate))
      (insertFlow (slotsOf atomic) candidate) := by
  refine Follows.perform fun inserted => ?_
  cases inserted with
  | false =>
    exact ⟨_, .idle (.inr rfl) (.vacate _), (follows_release).seq fun _ =>
      follows_resolveAgain _⟩
  | true =>
    refine ⟨_, .insert candidate hcreating, (follows_insertEntries candidate).seq fun indexed => ?_⟩
    cases indexed with
    | false => exact (follows_rollBack candidate).seq fun _ => follows_resolveAgain _
    | true =>
      refine Follows.perform fun activated => ?_
      cases activated with
      | true => exact ⟨_, .activate candidate, rfl⟩
      | false =>
        exact ⟨_, .refused rfl, (follows_rollBack candidate).seq fun _ =>
          follows_dropCreation _ rfl⟩

/-- `create_flow` toward a known target: generation, slot, record. -/
theorem follows_createToward (packet : PacketInfo) (target : Address) (port : UInt16) :
    Follows (Step atomic host) (Resolves (packetKey packet)) .calm
      (createToward (slotsOf atomic) packet (packetKey packet) target port) := by
  refine Follows.keep (fun _ => .quiet trivial) fun scratch => ?_
  cases scratch with
  | false => exact rfl
  | true =>
    refine Follows.keep (fun _ => .quiet trivial) fun counter => ?_
    cases counter with
    | false => exact rfl
    | true =>
      refine Follows.perform fun previous => ⟨_, .draw (tupleHash (packetKey packet)) previous, ?_⟩
      refine Follows.keep (fun _ => .quiet trivial) fun now => ?_
      refine (follows_reserve _).bind fun φ' reserved hφ' => ?_
      cases reserved with
      | false => exact follows_dropCreation _ hφ'
      | true =>
        obtain rfl : φ' = _ := hφ'
        exact follows_insertFlow _ rfl

/-- `create_flow` from `.calm`, ending in `Resolves` of the key of the packet. -/
theorem follows_createFlow (packet : PacketInfo) :
    Follows (Step atomic host) (Resolves (packetKey packet)) .calm
      (createFlow (slotsOf atomic) packet (packetKey packet)) := by
  refine (follows_reads (all_targetForPacket packet)).seq fun target => ?_
  cases target with
  | none => exact (follows_reads (all_incrementCounter _)).seq fun _ => rfl
  | some target => exact follows_createToward packet _ _

/-! ### Packets of a flow -/

/-- A packet that is not admitted stands where it stood. -/
def Enters (tuple : TupleKey) (index : Bpf.FlowIndexValue) (φ : Phase) : Option FlowStateValue → Prop
  | none => φ = .resolved tuple index
  | some record => φ = .admitted tuple record

/-- `enter_flow_packet` reads the record of the resolved entry and ends in `Enters`. -/
theorem follows_enterFlowPacket (tuple : TupleKey) (index : Bpf.FlowIndexValue) :
    Follows (Step atomic host) (Enters tuple index) (.resolved tuple index)
      (enterFlowPacket (keyOfIndex index)) := by
  have hguard : Leads atomic host (.resolved tuple index) (.resolved tuple index)
      (deletionGuardActive (keyOfIndex index)) :=
    follows_quiet ((all_deletionGuardActive _).mono fun _ => quiet_of_guardOp)
  have hbackOut : Follows (Step atomic host) (Enters tuple index) (.resolved tuple index)
      (backOut (keyOfIndex index)) := Follows.keep (fun _ => .quiet trivial) fun _ => rfl
  refine hguard.seq fun active => ?_
  cases active with
  | true => exact rfl
  | false =>
    refine Follows.keep (fun _ => .quiet trivial) fun count => ?_
    cases count with
    | none => exact rfl
    | some count =>
      refine Follows.keep (fun _ => .quiet trivial) fun _ => hguard.seq fun active => ?_
      cases active with
      | true => exact hbackOut
      | false =>
        refine Follows.perform fun current => ?_
        cases current with
        | none => exact ⟨_, .quiet trivial, hbackOut⟩
        | some record =>
          dsimp only
          by_cases hactive : record.lifecycle = flowActive
          · refine ⟨_, .learn trivial (.enter tuple index record), ?_⟩
            rw [if_pos hactive]
            exact rfl
          · refine ⟨_, .quiet trivial, ?_⟩
            rw [if_neg hactive]
            exact hbackOut

/-- `update_state` stores fields that no phase depends on. -/
theorem follows_updateState (key : FlowStateKey) (packet : PacketInfo) (ingress : Bool)
    (now : UInt64) :
    Leads atomic host φ φ (updateState key packet ingress now) := by
  unfold updateState
  split
  · exact Follows.keep (fun _ => .quiet trivial) fun config resp => ⟨_, .store key _, rfl⟩
  · exact fun resp => ⟨_, .store key _, rfl⟩

/-- `leave_flow_packet` is `Quiet`. -/
theorem all_quiet_leaveFlowPacket (key : FlowStateKey) : (leaveFlowPacket key).All Quiet := by
  refine ⟨trivial, fun count => ?_⟩
  cases count with
  | none => trivial
  | some count => exact ⟨trivial, fun _ => trivial⟩

/-- Where a packet ends: it is as it came, or has been rewritten by the record that admitted it. -/
def Delivers (frame : List UInt8) (packet : PacketInfo) (ingress : Bool) (φ : Phase)
    (result : TcAction × List UInt8) : Prop :=
  φ.isLast = true ∧ (result.2 = frame ∨ ∃ record, φ = .admitted (packetKey packet) record ∧
    result = (.ok, rewriteFrame frame packet ingress record))

/-- A packet on a resolved entry is admitted, rewritten and delivered as `Delivers` says. -/
theorem follows_processResolved (frame : List UInt8) (packet : PacketInfo) (ingress : Bool)
    (index : Bpf.FlowIndexValue) :
    Follows (Step atomic host) (Delivers frame packet ingress) (.resolved (packetKey packet) index)
      (processResolved frame packet ingress index) := by
  refine Follows.keep (fun _ => .quiet trivial) fun state => ?_
  cases state with
  | none => exact ⟨rfl, .inl rfl⟩
  | some state =>
    dsimp only
    split
    · refine (follows_enterFlowPacket (packetKey packet) index).bind fun φ' entered hφ' => ?_
      cases entered with
      | none =>
        obtain rfl : φ' = _ := hφ'
        exact ⟨rfl, .inl rfl⟩
      | some record =>
        obtain rfl : φ' = _ := hφ'
        refine Follows.keep (fun _ => .quiet trivial) fun now => ?_
        refine (follows_updateState _ packet ingress now).seq fun _ => ?_
        exact (follows_quiet (all_quiet_leaveFlowPacket _)).seq fun _ =>
          ⟨rfl, .inr ⟨record, rfl, rfl⟩⟩
    · exact ⟨rfl, .inl rfl⟩

/-- `process_packet` goes from `.calm` to an end; it keeps the frame, or `Delivers` it. -/
theorem follows_processPacket (frame : List UInt8) (ingress : Bool) :
    Follows (Step atomic host) (fun φ' result => φ'.isLast = true ∧ (result.2 = frame ∨
      ∃ packet, parsePacket frame = some packet ∧ Delivers frame packet ingress φ' result)) .calm
      (processPacket (slotsOf atomic) frame ingress) := by
  unfold processPacket
  cases hparse : parsePacket frame with
  | none => exact ⟨rfl, .inl rfl⟩
  | some packet =>
    refine (follows_reads (all_isControlPacket packet ingress)).seq fun control => ?_
    cases control with
    | true => exact (follows_reads (all_incrementCounter _)).seq fun _ => ⟨rfl, .inl rfl⟩
    | false =>
      refine Follows.bind (Q := Resolves (packetKey packet)) ?_ fun φ' resolution hφ' => ?_
      · refine Follows.perform fun index => ?_
        cases index with
        | some index => exact ⟨_, .learn trivial (.resolve _ index), rfl⟩
        | none =>
          refine ⟨_, .quiet trivial, ?_⟩
          cases ingress with
          | false => exact rfl
          | true => exact follows_createFlow packet
      · cases resolution with
        | verdict action => exact ⟨hφ', .inl rfl⟩
        | index index =>
          obtain rfl : φ' = _ := hφ'
          exact (follows_processResolved frame packet ingress index).mono fun φ' result h =>
            ⟨h.1, .inr ⟨packet, rfl, h⟩⟩

end Packets

/-! ## Calls of the host -/

section Host

variable {atomic : Bool} {φ : Phase} {α β : Type} {key : FlowStateKey}

/-- The end of a call: it may stop where it stands. -/
abbrev Stands (φ : Phase) (_ : Except BackendError β) : Prop := φ.isLast = true

/-- A `Quiet` part of a host call, followed by a rest that follows the automaton. -/
theorem follows_quietThen {p : Host α} {f : α → Host β} (hp : p.run.All Quiet)
    (hf : ∀ value, Follows (Step atomic true) Stands φ (f value).run) (hφ : φ.isLast = true) :
    Follows (Step atomic true) Stands φ (p >>= f).run := by
  refine (follows_quiet hp).bindE (fun φ' value hφ' => ?_) fun φ' error hφ' => ?_
  · subst hφ'
    exact hf value
  · subst hφ'
    exact hφ

/-- What a deletion does once the record is gone: it removes entries and publishes the release. -/
def Clears (key : FlowStateKey) (op : Op) : Prop := Quiet op ∨ IndexOp op ∨ op = .hostPush key

/-- The cleanup behind a deleted record issues operations that `Clears key` allows. -/
theorem all_clears_finishCleanup (expected : ControlService.FlowIndexValue) (tuples : List TupleKey)
    (stateDeleted staleGeneration : Bool) :
    (finishCleanup expected key tuples stateDeleted staleGeneration).run.All (Clears key) := by
  refine ((all_removeIndexes tuples).mono fun _ h => .inr (.inl h)).bindE fun indexes =>
    (all_attempt (p := removeIfPresent _ _) ⟨.inl (by simp [Quiet]), fun _ => trivial⟩).bindE fun _ =>
      Program.All.bindE ?_ fun _ => trivial
  refine Program.All.bindE (p := getOption _ _) ⟨.inl trivial, fun _ => trivial⟩ fun pending => ?_
  cases pending with
  | none => trivial
  | some _ => exact ⟨.inr (.inr rfl), fun _ => trivial⟩

/-- A program of `Clears key` stays in `.gone key`, where a thread may end. -/
theorem follows_clears {p : Host β} (hp : p.run.All (Clears key)) :
    Follows (Step atomic true) Stands (.gone key) p.run := by
  refine (Follows.of_all (φ := Phase.gone key) ?_ hp).mono fun φ' _ hφ' => hφ' ▸ rfl
  rintro op (hop | hop | rfl) resp
  · exact .quiet hop
  · cases hop with
    | get | iter => exact .quiet trivial
    | remove tuple => exact .unindex rfl key tuple resp
  · exact .push rfl key resp

/-- `removeRecord` deletes the record it has seen and cleans up behind it. -/
theorem follows_removeRecord (expected : ControlService.FlowIndexValue) (tuples : List TupleKey) :
    Follows (Step atomic true) Stands (.seen key) (removeRecord expected key tuples).run := by
  intro journaled
  cases journaled with
  | error error => exact ⟨_, .refused rfl, rfl⟩
  | ok =>
    refine ⟨_, .journal rfl key, fun removed => ?_⟩
    cases removed with
    | ok => exact ⟨_, .remove rfl key, follows_clears (all_clears_finishCleanup _ _ _ _)⟩
    | error error =>
      refine ⟨_, .refused rfl, fun withdrawn => ⟨_, .withdraw rfl key withdrawn, ?_⟩⟩
      exact follows_quietThen (p := getOption .releasePending _) ⟨trivial, fun _ => trivial⟩
        (fun _ => rfl) rfl

/-- A guarded round: the cleanup where no packet is in flight, and the release of the guard. -/
theorem follows_guardedRound (expected : ControlService.FlowIndexValue) (observed : UInt64) :
    Follows (Step atomic true) Stands (.seen key) (guardedRound expected key observed).run := by
  have hcleanup : Follows (Step atomic true) Stands (.seen key)
      (guardedCleanup expected key observed).run := by
    refine follows_quietThen (all_commitDeletion.mono fun _ => quiet_of_roundOp) (fun commit => ?_) rfl
    cases commit with
    | report report => exact rfl
    | flow record =>
      refine follows_quietThen (all_decoded _ _ _) (fun flow => ?_) rfl
      split
      · exact rfl
      · exact follows_removeRecord _ _
  have hdropped : ∀ {m : MapId} (k : m.Key), m = .deleteGuard ∨ m = .deleteOutcome →
      (attempt (removeIfPresent m k)).run.All Quiet := by
    rintro m k (rfl | rfl) <;> exact all_attempt ⟨by simp [Quiet], fun _ => trivial⟩
  rw [guardedRound, ExceptT.run_bind, run_attempt, bind_assoc]
  refine hcleanup.bind fun φ' cleanup hφ' => ?_
  exact follows_quietThen (hdropped _ (.inl rfl)) (fun guardRemoved =>
    follows_quietThen (hdropped _ (.inr rfl)) (fun outcomeRemoved => hφ') hφ') hφ'

/-- `delete_flow` follows the automaton from `.calm`, through its rounds until the deadline. -/
theorem follows_deleteFlow (flowId : UInt64) (generation : UInt32) (observed deadline : UInt64) :
    Follows (Step atomic true) Stands .calm (deleteFlow flowId generation observed deadline).run := by
  have hgone : ∀ {m : MapId} (k : m.Key), m = .deleteGuard ∨ m = .deleteOutcome →
      (attempt (removeKey m k)).run.All Quiet := by
    rintro m k (rfl | rfl) <;> exact all_attempt ⟨by simp [Quiet], fun _ => trivial⟩
  have habsent : ∀ expected : ControlService.FlowIndexValue, ∀ k,
      (cleanupAbsent expected k).run.All (Clears k) := fun expected k => by
    have hindexes : decodedIndexes.run.All (Clears k) :=
      all_decodedIndexes.mono fun _ h => .inr (.inl h)
    unfold cleanupAbsent
    exact hindexes.bindE fun _ => hindexes.bindE fun _ => all_clears_finishCleanup _ _ _ _
  simp only [deleteFlow, unpack_encodeFlowStateKey]
  have hmissed : ∀ error, error = MapError.keyNotFound ∨ error = .elementNotFound → Step atomic true .calm
      (.hostGet .flowState (stateKeyOf flowId generation)) (.error error)
      (.gone (stateKeyOf flowId generation)) := fun error h => .learn trivial (.miss rfl _ error h)
  have hcleared : Follows (Step atomic true) Stands (.gone (stateKeyOf flowId generation))
      (attempt (removeKey .deleteGuard (stateKeyOf flowId generation)) >>= fun _ =>
        attempt (removeKey .deleteOutcome (stateKeyOf flowId generation)) >>= fun _ =>
          cleanupAbsent ⟨flowId, generation⟩ (stateKeyOf flowId generation)).run :=
    follows_quietThen (hgone _ (.inl rfl)) (fun _ => follows_quietThen (hgone _ (.inr rfl)) (fun _ =>
      follows_clears (habsent _ _)) rfl) rfl
  intro result
  cases result with
  | ok record =>
    refine ⟨_, .learn trivial (.see rfl _ record), follows_quietThen
      ((all_installGuard deadline).mono fun _ => quiet_of_roundOp) (fun armed => ?_) rfl⟩
    split
    · exact follows_guardedRound _ observed
    · exact rfl
  | error error =>
    cases error with
    | keyNotFound => exact ⟨_, hmissed _ (.inl rfl), hcleared⟩
    | elementNotFound => exact ⟨_, hmissed _ (.inr rfl), hcleared⟩
    | syscall call => exact ⟨_, .quiet trivial, rfl⟩

end Host

/-! ## Jobs -/

/-- Where a job ends: a packet is as it came, or has been rewritten by the record that admitted it. -/
def Ends (job : Job) (φ : Phase) (outcome : Outcome) : Prop :=
  φ.isLast = true ∧ ∀ frame ingress action out, job = .packet frame ingress →
    outcome = .verdict action out → out = frame ∨ ∃ packet record, parsePacket frame = some packet ∧
      φ = .admitted (packetKey packet) record ∧ action = .ok ∧
      out = rewriteFrame frame packet ingress record

/-- **Every job follows the automaton.** -/
theorem follows_code (atomic : Bool) (job : Job) :
    Follows (Step atomic job.isHost) (Ends job) .calm (job.code (slotsOf atomic)) := by
  cases job with
  | packet frame ingress =>
    refine (follows_processPacket frame ingress).bind fun φ' result ⟨hlast, hresult⟩ =>
      ⟨hlast, fun frame' ingress' action out hjob hout => ?_⟩
    cases hjob
    cases hout
    rcases hresult with hsame | ⟨packet, hparse, -, hsame | ⟨record, hadmitted, heq⟩⟩
    · exact .inl hsame
    · exact .inl hsame
    · rw [heq]
      exact .inr ⟨packet, record, hparse, hadmitted, rfl, rfl⟩
  | delete flowId generation observed deadline =>
    exact (follows_deleteFlow flowId generation observed deadline).bind fun φ' result hlast =>
      ⟨hlast, fun _ _ _ _ hjob => (nomatch hjob)⟩
  | setConfig config =>
    have hstays : ∀ op, (∃ value, op = .hostSetConfig value) →
        ∀ resp, Step atomic true .calm op resp .calm := by
      rintro op ⟨value, rfl⟩ resp
      exact .configure value resp
    exact (Follows.of_all hstays (all_setRuntimeConfig config)).seq fun result =>
      ⟨rfl, fun _ _ _ _ hjob => (nomatch hjob)⟩
  | listFlows =>
    refine (follows_quiet (all_listFlowStates.mono ?_)).seq fun result =>
      ⟨rfl, fun _ _ _ _ hjob => (nomatch hjob)⟩
    rintro op rfl
    trivial

end ShadowSocketProxy.Concurrent
