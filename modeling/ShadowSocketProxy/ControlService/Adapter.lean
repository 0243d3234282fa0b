import ShadowSocketProxy.Bpf.Maps
import ShadowSocketProxy.ControlService.Config
import Mathlib.Data.List.Sort

/-! # The map adapter of the control service

`AyaLinuxTcAdapter` of `bpf.rs`: flow enumeration, flow deletion and configuration writes, as
programs over the same atomic map operations the classifiers use. The adapter is loaded, and its
mutex makes its calls exclude each other; that part is the scheduler's business. -/

namespace ShadowSocketProxy.ControlService

open Interleaving Bpf

/-- Errors of the backend. -/
inductive BackendError where
  | missingElf (path : String)
  | invalidInterface (name : String)
  /-- An operation failed at a named location. -/
  | operation (location message : String)
  | unsupported
  /-- No object is loaded. -/
  | notAttached
  | abiMismatch (version : UInt16)
  | flowCapacity
  | partialCleanup (message : String)
  deriving DecidableEq

/-- The text of an error. -/
def BackendError.message : BackendError → String
  | .missingElf path => "ELF path does not exist: " ++ path
  | .invalidInterface name => "invalid interface name: " ++ name
  | .operation location message => "backend failure at " ++ location ++ ": " ++ message
  | .unsupported => "backend does not support Linux TC operations"
  | .notAttached => "no ELF has been loaded"
  | .abiMismatch version => "ABI version " ++ toString version.toNat ++ " is not supported"
  | .flowCapacity => "active-flow capacity is exhausted"
  | .partialCleanup message => "partial flow cleanup: " ++ message

/-- Outcome of deleting one flow. -/
structure FlowCleanupReport where
  stateDeleted : Bool := false
  indexesDeleted : Nat := 0
  isPartial : Bool := false
  staleGeneration : Bool := false
  observationMismatch : Bool := false
  deriving DecidableEq

/-- The report of a deletion that found the flow changed or in use. -/
def FlowCleanupReport.mismatch : FlowCleanupReport := { observationMismatch := true }

/-- The text of a map error. -/
def mapErrorMessage : MapError → String
  | .keyNotFound => "key not found"
  | .elementNotFound => "element not found"
  | .syscall call => call ++ " failed"

/-- `map_error`. -/
def mapError (error : MapError) : BackendError := .operation "map" (mapErrorMessage error)

/-! ## Map calls -/

/-- Programs of the adapter: they may fail with a backend error. -/
abbrev Host : Type → Type := ExceptT BackendError Prog

/-- Run a call and hand its result over instead of failing. -/
def attempt {α : Type} (call : Host α) : Host (Except BackendError α) := ExceptT.lift call.run

/-- Fail with a decoding error at a named location. -/
def decoded {α : Type} (location : String) (result : Except AbiError α) : Host α :=
  match result with
  | .ok value => pure value
  | .error error => throw (.operation location error.message)

/-- Read a key; an absent key is no error. -/
def getOption (m : MapId) (key : m.Key) : Host (Option m.Val) := ExceptT.mk do
  let result ← perform (.hostGet m key)
  pure (match result with
    | .ok value => .ok (some value)
    | .error .keyNotFound => .ok none
    | .error .elementNotFound => .ok none
    | .error error => .error (mapError error))

/-- Insert a key. -/
def insertKey (m : MapId) (key : m.Key) (value : m.Val) (flag : UpdateFlag) : Host Unit :=
  ExceptT.mk do
    let result ← perform (.hostInsert m key value flag)
    pure (result.mapError mapError)

/-- Remove a key; an absent key is an error. -/
def removeKey (m : MapId) (key : m.Key) : Host Unit := ExceptT.mk do
  let result ← perform (.hostRemove m key)
  pure (result.mapError mapError)

/-- Remove a key; a key reported as missing is no error. -/
def removeIfPresent (m : MapId) (key : m.Key) : Host Unit := ExceptT.mk do
  let result ← perform (.hostRemove m key)
  pure (match result with
    | .ok () => .ok ()
    | .error .keyNotFound => .ok ()
    | .error .elementNotFound => .ok ()
    | .error error => .error (mapError error))

/-- All entries of a map. -/
def iterate (m : MapId) : Host (List (m.Key × m.Val)) := ExceptT.mk do
  let result ← perform (.hostIter m)
  pure (result.mapError mapError)

/-- The number of packets inside a flow; an absent count is zero. -/
def readInflight (key : FlowStateKey) : Host Int := do
  let count ← getOption .packetInflight key
  pure (count.getD 0)

/-! ## Enumeration and configuration -/

/-- Decode all flow-state records; the first that does not decode fails the whole call. -/
def listFlowStates : Host (List FlowState) := do
  let entries ← iterate .flowState
  decoded "flow-state:decode" (entries.mapM fun entry => decodeFlowState entry.2.pack)

/-- Encode a configuration and write it for the classifiers. -/
def setRuntimeConfig (config : RuntimeConfig) : Host Unit := do
  let idleTtlNs ← match bpfDurationNanos config.idleTtl with
    | .ok nanos => pure nanos
    | .error error => throw (.operation "runtime-config:idle-ttl" error.message)
  let terminalGraceNs ← match bpfDurationNanos config.tcpTerminalGrace with
    | .ok nanos => pure nanos
    | .error error => throw (.operation "runtime-config:terminal-grace" error.message)
  ExceptT.mk do
    let result ← perform (.hostSetConfig (runtimeConfigBytes config idleTtlNs terminalGraceNs))
    pure (result.mapError mapError)

/-! ## Deletion -/

/-- Insert the guard of a deletion round, once an old one is out of the way. -/
def armGuard (stateKey : FlowStateKey) (guardDeadlineNs : UInt64) : Host Bool := do
  let _ ← attempt (removeKey .deleteOutcome stateKey)
  insertKey .deleteGuard stateKey guardDeadlineNs .noexist
  pure true

/-- Install the guard; false when another round's guard has not expired yet. -/
def installGuard (stateKey : FlowStateKey) (guardDeadlineNs : UInt64) : Host Bool := do
  let existing ← getOption .deleteGuard stateKey
  match existing with
  | none => armGuard stateKey guardDeadlineNs
  | some deadline => do
    let now ← ExceptT.lift (perform .hostNow)
    if now ≤ deadline then pure false
    else do
      removeKey .deleteGuard stateKey
      armGuard stateKey guardDeadlineNs

/-- Poll the in-flight count until it is zero, at most the given number of times. -/
def pollQuiescent (stateKey : FlowStateKey) : Nat → Host Bool
  | 0 => pure false
  | attempts + 1 => do
    let inFlight ← readInflight stateKey
    if inFlight = 0 then pure true else pollQuiescent stateKey attempts

/-- The rounds of the two in-flight polls. -/
def pollLimit : Nat := 128

/-- What the commit of a deletion leads to: a report, or the record to delete. -/
inductive Commit where
  | report (report : FlowCleanupReport)
  | flow (state : FlowStateValue)

/-- The record at the first zero count. -/
def readStable (stateKey : FlowStateKey) : Host (Option FlowStateValue) := do
  let quiescent ← pollQuiescent stateKey pollLimit
  if quiescent then getOption .flowState stateKey else pure none

/-- The second half of a commit: wait for the packets that were admitted before it, then read the
record again. -/
def readCommitted (stateKey : FlowStateKey) : Host Commit := do
  let quiescent ← pollQuiescent stateKey pollLimit
  if quiescent then do
    let committed ← getOption .flowState stateKey
    match committed with
    | none => pure (.report {})
    | some flow => pure (.flow flow)
  else pure (.report .mismatch)

/-- Wait for quiescence, commit, and read the record. -/
def commitDeletion (stateKey : FlowStateKey) : Host Commit := do
  let stable ← readStable stateKey
  match stable with
  | none => pure (.report .mismatch)
  | some _ => do
    let committed ←
      attempt (insertKey .deleteOutcome stateKey flowDeleteCommitted .noexist)
    match committed with
    | .error _ => pure (.report .mismatch)
    | .ok () => readCommitted stateKey

/-- Remove one index if it still belongs to the expected flow generation. -/
def removeIndex (expected : FlowIndexValue) (key : TupleKey) : Host Bool := do
  let current ← getOption .flowIndex key
  match current with
  | none => pure false
  | some current => do
    let current ← decoded "flow-index:decode" (decodeFlowIndex current.pack)
    if current = expected then do
      removeKey .flowIndex key
      pure true
    else pure false

/-- Remove the listed indexes: how many were removed, and whether one failed. -/
def removeIndexes (expected : FlowIndexValue) : List TupleKey → Host (Nat × Bool)
  | [] => pure (0, false)
  | key :: keys => do
    let removed ← attempt (removeIndex expected key)
    let rest ← removeIndexes expected keys
    pure (match removed with
      | .ok true => (rest.1 + 1, rest.2)
      | .ok false => rest
      | .error _ => (rest.1, true))

/-- `Vec::dedup`: drop adjacent repetitions. -/
def dedup {α : Type} [DecidableEq α] : List α → List α
  | [] => []
  | a :: rest =>
    match dedup rest with
    | [] => [a]
    | b :: rest => if a = b then b :: rest else a :: b :: rest

/-- The index keys in byte order, without repetitions. -/
def sortedKeys (keys : List (List UInt8)) : List TupleKey :=
  (dedup (keys.insertionSort (· ≤ ·))).map TupleKey.unpack

theorem mem_dedup_iff {α : Type} [DecidableEq α] {a : α} {l : List α} : a ∈ dedup l ↔ a ∈ l := by
  induction l with
  | nil => exact Iff.rfl
  | cons b rest ih =>
    rw [dedup, List.mem_cons, ← ih]
    split
    · rename_i heq
      rw [heq, List.mem_singleton]
      simp
    · rename_i c rest' heq
      rw [heq]
      split
      · rename_i hbc
        subst hbc
        simp
      · simp

/-- Sorting and deduplication keep the keys. -/
theorem mem_sortedKeys_iff {t : TupleKey} {keys : List (List UInt8)} :
    t ∈ sortedKeys keys ↔ ∃ bytes ∈ keys, TupleKey.unpack bytes = t := by
  rw [sortedKeys, List.mem_map]
  simp only [mem_dedup_iff, List.mem_insertionSort]

/-- Deduplication of a sorted list leaves a strictly sorted one. -/
theorem pairwise_dedup {α : Type} [DecidableEq α] {r : α → α → Prop} [Std.Antisymm r] {l : List α}
    (h : l.Pairwise r) : (dedup l).Pairwise fun a b => r a b ∧ a ≠ b := by
  induction l with
  | nil => exact .nil
  | cons a rest ih =>
    obtain ⟨hle, hrest⟩ := List.pairwise_cons.mp h
    have hpairs := ih hrest
    rw [dedup]
    split
    · exact List.pairwise_singleton _ a
    · rename_i b rest' heq
      have hmem : ∀ x, x ∈ b :: rest' → r a x := by
        intro x hx
        rw [← heq, mem_dedup_iff] at hx
        exact hle x hx
      rw [heq] at hpairs
      split
      · exact hpairs
      · rename_i hne
        refine List.pairwise_cons.mpr ⟨fun x hx => ⟨hmem x hx, ?_⟩, hpairs⟩
        rintro rfl
        rcases List.mem_cons.mp hx with rfl | hx'
        · exact hne rfl
        · have hba := ((List.pairwise_cons.mp hpairs).1 a hx').1
          exact hne (Std.Antisymm.antisymm a b (hmem b List.mem_cons_self) hba)

/-- Publish the release of a slot whose journal entry is there: whether the push failed. -/
def publishRelease (stateKey : FlowStateKey) : Host Bool := do
  let releasePending ← getOption .releasePending stateKey
  match releasePending with
  | none => pure false
  | some _ => ExceptT.mk do
      let result ← perform (.hostPush stateKey)
      pure (match result with
        | .ok () => .ok false
        | .error _ => .ok true)

/-- The cleanup behind the removal of the record: indexes, in-flight count and release. -/
def finishCleanup (expected : FlowIndexValue) (stateKey : FlowStateKey) (indexKeys : List TupleKey)
    (stateDeleted staleGeneration : Bool) : Host FlowCleanupReport := do
  let indexes ← removeIndexes expected indexKeys
  let inflight ← attempt (removeIfPresent .packetInflight stateKey)
  let unpublished ← publishRelease stateKey
  pure
    { stateDeleted := stateDeleted
      indexesDeleted := indexes.1
      isPartial := indexes.2 || !inflight.isOk || unpublished
      staleGeneration := staleGeneration }

/-- Journal the release, then remove the record. The removal transfers the ownership of the slot: if
it fails, the journal entry is withdrawn and nothing else is touched. -/
def removeRecord (expected : FlowIndexValue) (stateKey : FlowStateKey) (indexKeys : List TupleKey) :
    Host FlowCleanupReport := do
  insertKey .releasePending stateKey flowReleasePending .any
  let removed ← attempt (removeKey .flowState stateKey)
  match removed with
  | .ok () => finishCleanup expected stateKey indexKeys true false
  | .error _ => do
    let _ ← attempt (removeKey .releasePending stateKey)
    let _ ← getOption .releasePending stateKey
    pure { isPartial := true }

/-- The cleanup of a flow whose record is there and committed for deletion. -/
def cleanupRecord (expected : FlowIndexValue) (stateKey : FlowStateKey)
    (observedLastUsedNs : UInt64) (record : FlowStateValue) : Host FlowCleanupReport := do
  let flow ← decoded "flow-state:decode" (decodeFlowState record.pack)
  if observedLastUsedNs ≠ 0 ∧ flow.lastUsedNs ≠ observedLastUsedNs then pure .mismatch
  else
    removeRecord expected stateKey
      (sortedKeys [encodeKey flow.original, encodeKey flow.target, encodeKey flow.reverse])

/-- All index entries, decoded; the first that does not decode fails the whole call. -/
def decodedIndexes : Host (List (TupleKey × FlowIndexValue)) := do
  let entries ← iterate .flowIndex
  decoded "flow-index:decode" (entries.mapM fun entry => do
    let value ← decodeFlowIndex entry.2.pack
    pure (entry.1, value))

/-- The cleanup of a flow without a record: what an earlier deletion may have left behind. -/
def cleanupAbsent (expected : FlowIndexValue) (stateKey : FlowStateKey) :
    Host FlowCleanupReport := do
  let entries ← decodedIndexes
  let staleGeneration := entries.any fun entry =>
    entry.2.flowId = expected.flowId && entry.2.generation ≠ expected.generation
  let entries ← decodedIndexes
  let owned := entries.filter fun entry => entry.2 = expected
  finishCleanup expected stateKey (sortedKeys (owned.map fun entry => entry.1.pack)) false
    staleGeneration

/-- The cleanup inside a guarded round. -/
def guardedCleanup (expected : FlowIndexValue) (stateKey : FlowStateKey)
    (observedLastUsedNs : UInt64) : Host FlowCleanupReport := do
  let commit ← commitDeletion stateKey
  match commit with
  | .report report => pure report
  | .flow record => cleanupRecord expected stateKey observedLastUsedNs record

/-- The text of a failed guard or outcome cleanup. -/
def cleanupFailure (what : String) : Except BackendError Unit → List String
  | .ok () => []
  | .error error => [what ++ " cleanup failed: " ++ error.message]

/-- The result of a deletion from the result of its cleanup and the failures of removing guard and
outcome. -/
def concludeDeletion (cleanup : Except BackendError FlowCleanupReport) (failures : List String) :
    Except BackendError FlowCleanupReport :=
  match cleanup with
  | .ok report => if failures = [] then .ok report else .ok { report with isPartial := true }
  | .error error =>
    if failures = [] then .error error
    else .error (.operation "flow-delete:operation-cleanup"
      (error.message ++ "; " ++ "; ".intercalate failures))

/-- A guarded round: the cleanup, then the removal of guard and outcome whatever it led to. -/
def guardedRound (expected : FlowIndexValue) (stateKey : FlowStateKey)
    (observedLastUsedNs : UInt64) : Host FlowCleanupReport := do
  let cleanup ← attempt (guardedCleanup expected stateKey observedLastUsedNs)
  let guardRemoved ← attempt (removeIfPresent .deleteGuard stateKey)
  let outcomeRemoved ← attempt (removeIfPresent .deleteOutcome stateKey)
  ExceptT.mk (pure (concludeDeletion cleanup
    (cleanupFailure "guard" guardRemoved ++ cleanupFailure "outcome" outcomeRemoved)))

/-- Remove the record of a flow generation and every index that belongs to it. -/
def deleteFlow (flowId : UInt64) (generation : UInt32) (observedLastUsedNs : UInt64)
    (guardDeadlineNs : UInt64) : Host FlowCleanupReport := do
  let expected : FlowIndexValue := ⟨flowId, generation⟩
  let stateKey := FlowStateKey.unpack (encodeFlowStateKey flowId generation)
  let initialFlow ← getOption .flowState stateKey
  match initialFlow with
  | none => do
    let _ ← attempt (removeKey .deleteGuard stateKey)
    let _ ← attempt (removeKey .deleteOutcome stateKey)
    cleanupAbsent expected stateKey
  | some _ => do
    let armed ← installGuard stateKey guardDeadlineNs
    if armed then guardedRound expected stateKey observedLastUsedNs else pure .mismatch

/-! ## Footprint -/

/-- The operations of the adapter on the flow indexes. -/
inductive IndexOp : Op → Prop
  | get (tuple : TupleKey) : IndexOp (.hostGet .flowIndex tuple)
  | remove (tuple : TupleKey) : IndexOp (.hostRemove .flowIndex tuple)
  | iter : IndexOp (.hostIter .flowIndex)

/-- The operations of a deletion of one flow. -/
inductive HostOp (key : FlowStateKey) : Op → Prop
  | index {op : Op} (h : IndexOp op) : HostOp key op
  | getState : HostOp key (.hostGet .flowState key)
  | getGuard : HostOp key (.hostGet .deleteGuard key)
  | getInflight : HostOp key (.hostGet .packetInflight key)
  | getPending : HostOp key (.hostGet .releasePending key)
  | insertGuard (deadline : UInt64) : HostOp key (.hostInsert .deleteGuard key deadline .noexist)
  | commit : HostOp key (.hostInsert .deleteOutcome key flowDeleteCommitted .noexist)
  | journal : HostOp key (.hostInsert .releasePending key flowReleasePending .any)
  | removeState : HostOp key (.hostRemove .flowState key)
  | removeGuard : HostOp key (.hostRemove .deleteGuard key)
  | removeOutcome : HostOp key (.hostRemove .deleteOutcome key)
  | removeInflight : HostOp key (.hostRemove .packetInflight key)
  | removePending : HostOp key (.hostRemove .releasePending key)
  | push : HostOp key (.hostPush key)
  | now : HostOp key .hostNow

/-- The operations by which a deletion sets up its round: they touch guard and outcome only. -/
inductive RoundOp (key : FlowStateKey) : Op → Prop
  | getState : RoundOp key (.hostGet .flowState key)
  | getGuard : RoundOp key (.hostGet .deleteGuard key)
  | getInflight : RoundOp key (.hostGet .packetInflight key)
  | insertGuard (deadline : UInt64) : RoundOp key (.hostInsert .deleteGuard key deadline .noexist)
  | commit : RoundOp key (.hostInsert .deleteOutcome key flowDeleteCommitted .noexist)
  | removeGuard : RoundOp key (.hostRemove .deleteGuard key)
  | removeOutcome : RoundOp key (.hostRemove .deleteOutcome key)
  | now : RoundOp key .hostNow

theorem RoundOp.host {key : FlowStateKey} {op : Op} (h : RoundOp key op) : HostOp key op := by
  cases h with
  | getState => exact .getState
  | getGuard => exact .getGuard
  | getInflight => exact .getInflight
  | insertGuard deadline => exact .insertGuard deadline
  | commit => exact .commit
  | removeGuard => exact .removeGuard
  | removeOutcome => exact .removeOutcome
  | now => exact .now

section Footprint

variable {key : FlowStateKey} {expected : FlowIndexValue}

/-- Handing over a result issues no further operation. -/
theorem run_attempt {α : Type} (call : Host α) :
    (attempt call).run = call.run >>= fun result => .ret (.ok result) := rfl

theorem all_attempt {α : Type} {allowed : Op → Prop} {p : Host α} (h : p.run.All allowed) :
    (attempt p).run.All allowed := by
  rw [run_attempt]
  exact h.bind fun _ => trivial

theorem all_decoded {α : Type} (allowed : Op → Prop) (location : String)
    (result : Except AbiError α) : (decoded location result).run.All allowed := by
  cases result <;> trivial

theorem all_armGuard (deadline : UInt64) : (armGuard key deadline).run.All (RoundOp key) :=
  (all_attempt (p := removeKey _ _) ⟨.removeOutcome, fun _ => trivial⟩).bindE fun _ =>
    Program.All.bindE (p := insertKey _ _ _ _) ⟨.insertGuard _, fun _ => trivial⟩ fun _ => trivial

theorem all_installGuard (deadline : UInt64) : (installGuard key deadline).run.All (RoundOp key) := by
  refine Program.All.bindE (p := getOption _ _) ⟨.getGuard, fun _ => trivial⟩ fun existing => ?_
  cases existing with
  | none => exact all_armGuard deadline
  | some old =>
    refine Program.All.bindE (p := ExceptT.lift _) ⟨.now, fun _ => trivial⟩ fun now => ?_
    split
    · trivial
    · exact Program.All.bindE (p := removeKey _ _) ⟨.removeGuard, fun _ => trivial⟩ fun _ =>
        all_armGuard deadline

theorem all_pollQuiescent (attempts : Nat) : (pollQuiescent key attempts).run.All (RoundOp key) := by
  induction attempts with
  | zero => trivial
  | succ attempts ih =>
    refine Program.All.bindE (p := readInflight key) ?_ fun inFlight => ?_
    · exact Program.All.bindE (p := getOption _ _) ⟨.getInflight, fun _ => trivial⟩ fun _ => trivial
    · split
      · trivial
      · exact ih

theorem all_commitDeletion : (commitDeletion key).run.All (RoundOp key) := by
  have hread : (getOption .flowState key).run.All (RoundOp key) := ⟨.getState, fun _ => trivial⟩
  refine Program.All.bindE (p := readStable key) ?_ fun stable => ?_
  · refine (all_pollQuiescent _).bindE fun quiescent => ?_
    split
    · exact hread
    · trivial
  · cases stable with
    | none => trivial
    | some record =>
      refine (all_attempt (p := insertKey _ _ _ _) ⟨.commit, fun _ => trivial⟩).bindE
        fun committed => ?_
      cases committed with
      | error error => trivial
      | ok =>
        refine (all_pollQuiescent _).bindE fun quiescent => ?_
        split
        · refine hread.bindE fun committed => ?_
          cases committed <;> trivial
        · trivial

theorem all_removeIndexes (tuples : List TupleKey) :
    (removeIndexes expected tuples).run.All IndexOp := by
  induction tuples with
  | nil => trivial
  | cons tuple tuples ih =>
    refine (all_attempt ?_).bindE fun removed => ih.bindE fun rest => trivial
    refine Program.All.bindE (p := getOption _ _) ⟨.get _, fun _ => trivial⟩ fun current => ?_
    cases current with
    | none => trivial
    | some current =>
      refine (all_decoded _ _ _).bindE fun current => ?_
      split
      · exact Program.All.bindE (p := removeKey _ _) ⟨.remove _, fun _ => trivial⟩ fun _ =>
          trivial
      · trivial

theorem all_finishCleanup (tuples : List TupleKey) (stateDeleted staleGeneration : Bool) :
    (finishCleanup expected key tuples stateDeleted staleGeneration).run.All (HostOp key) := by
  refine ((all_removeIndexes tuples).mono fun _ => .index).bindE fun indexes =>
    (all_attempt (p := removeIfPresent _ _) ⟨.removeInflight, fun _ => trivial⟩).bindE fun _ =>
      Program.All.bindE ?_ fun _ => trivial
  refine Program.All.bindE (p := getOption _ _) ⟨.getPending, fun _ => trivial⟩ fun pending => ?_
  cases pending with
  | none => trivial
  | some _ => exact ⟨.push, fun _ => trivial⟩

theorem all_removeRecord (tuples : List TupleKey) :
    (removeRecord expected key tuples).run.All (HostOp key) := by
  refine Program.All.bindE (p := insertKey _ _ _ _) ⟨.journal, fun _ => trivial⟩ fun _ =>
    (all_attempt (p := removeKey _ _) ⟨.removeState, fun _ => trivial⟩).bindE fun removed => ?_
  cases removed with
  | ok => exact all_finishCleanup tuples true false
  | error error =>
    exact (all_attempt (p := removeKey _ _) ⟨.removePending, fun _ => trivial⟩).bindE fun _ =>
      Program.All.bindE (p := getOption _ _) ⟨.getPending, fun _ => trivial⟩ fun _ => trivial

theorem all_cleanupRecord (observed : UInt64) (record : FlowStateValue) :
    (cleanupRecord expected key observed record).run.All (HostOp key) := by
  unfold cleanupRecord
  refine (all_decoded _ _ _).bindE fun flow => ?_
  split
  · trivial
  · exact all_removeRecord _

theorem all_decodedIndexes : decodedIndexes.run.All IndexOp :=
  Program.All.bindE (p := iterate _) ⟨.iter, fun _ => trivial⟩ fun _ => all_decoded _ _ _

theorem all_cleanupAbsent : (cleanupAbsent expected key).run.All (HostOp key) := by
  have hindexes : decodedIndexes.run.All (HostOp key) := all_decodedIndexes.mono fun _ => .index
  unfold cleanupAbsent
  exact hindexes.bindE fun _ => hindexes.bindE fun _ => all_finishCleanup _ _ _

theorem all_guardedCleanup (observed : UInt64) :
    (guardedCleanup expected key observed).run.All (HostOp key) := by
  unfold guardedCleanup
  refine (all_commitDeletion.mono fun _ => RoundOp.host).bindE fun commit => ?_
  cases commit with
  | report report => trivial
  | flow record =>
    dsimp only
    exact all_cleanupRecord observed record

theorem all_guardedRound (observed : UInt64) :
    (guardedRound expected key observed).run.All (HostOp key) := by
  unfold guardedRound
  exact (all_attempt (all_guardedCleanup observed)).bindE fun cleanup =>
    (all_attempt (p := removeIfPresent _ _) ⟨.removeGuard, fun _ => trivial⟩).bindE fun _ =>
      (all_attempt (p := removeIfPresent _ _)
        ⟨.removeOutcome, fun _ => trivial⟩).bindE fun _ => trivial

/-- The whole deletion. -/
theorem all_deleteFlow (flowId : UInt64) (generation : UInt32) (observed deadline : UInt64) :
    (deleteFlow flowId generation observed deadline).run.All
      (HostOp (stateKeyOf flowId generation)) := by
  simp only [deleteFlow, unpack_encodeFlowStateKey]
  refine Program.All.bindE (p := getOption _ _) ⟨.getState, fun _ => trivial⟩ fun initial => ?_
  cases initial with
  | none =>
    exact (all_attempt (p := removeKey _ _) ⟨.removeGuard, fun _ => trivial⟩).bindE fun _ =>
      (all_attempt (p := removeKey _ _) ⟨.removeOutcome, fun _ => trivial⟩).bindE fun _ =>
        all_cleanupAbsent
  | some record =>
    refine ((all_installGuard deadline).mono fun _ => RoundOp.host).bindE fun armed => ?_
    split
    · exact all_guardedRound observed
    · trivial

theorem all_listFlowStates : listFlowStates.run.All (· = .hostIter .flowState) :=
  Program.All.bindE (p := iterate _) ⟨rfl, fun _ => trivial⟩ fun _ => all_decoded _ _ _

theorem all_setRuntimeConfig (config : RuntimeConfig) :
    (setRuntimeConfig config).run.All fun op => ∃ value, op = .hostSetConfig value := by
  unfold setRuntimeConfig
  cases bpfDurationNanos config.idleTtl with
  | error error => trivial
  | ok idleTtlNs =>
    cases bpfDurationNanos config.tcpTerminalGrace with
    | error error => trivial
    | ok terminalGraceNs => exact ⟨⟨_, rfl⟩, fun _ => trivial⟩

/-! ### Calls that do not fail -/

theorem failsOnly_attempt {α : Type} {E : BackendError → Prop} (p : Host α) :
    Program.FailsOnly E (attempt p) := by
  unfold Program.FailsOnly
  rw [run_attempt]
  exact Program.Yields.of_bind _ fun r e he => (nomatch he)

theorem failsOnly_removeIndexes {E : BackendError → Prop} (tuples : List TupleKey) :
    Program.FailsOnly E (removeIndexes expected tuples) := by
  induction tuples with
  | nil => exact fun e he => (nomatch he)
  | cons t tuples ih =>
    exact (failsOnly_attempt _).bind fun _ => ih.bind fun _ _ he => (nomatch he)

end Footprint

end ShadowSocketProxy.ControlService
