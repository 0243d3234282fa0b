import ShadowSocketProxy.Deletion.Packets

/-! # Packets and the host exclude each other

The host's side of the deletion rounds, and what the two sides guarantee each other in every
interleaving. -/

namespace ShadowSocketProxy.Deletion

open Interleaving Bpf ControlService
open Multiset (mem_cons mem_cons_of_mem mem_cons_self)

variable {k : FlowStateKey} {thread : Nat} {job : Job} {φ : Phase} {α β : Type}

/-! ## Single calls -/

/-- The phase of a host after it has tried to remove the outcome: only what does not rest on the
commit remains known. -/
def Phase.dropped : Phase → Phase
  | .absent => .absent
  | .removed thread observed => .removed thread observed
  | _ => .out

theorem Phase.counted_dropped (φ : Phase) : φ.dropped.counted = false := by
  cases φ <;> rfl

theorem safe_dropOutcome (hhost : job.isHost = true) (hφ : φ.counted = false)
    {f : Except MapError Unit → Prog β} {Q : Phase → β → Prop}
    (hf : ∀ resp, Safe k thread job Q φ.dropped (f resp)) :
    Safe k thread job Q φ (perform (.hostRemove .deleteOutcome k) >>= f) := by
  refine Outline.Safe.perform fun c resp s s' history rest hinv hexec _ => ⟨φ.dropped, ?_, hf resp⟩
  have hexec : exec c (.hostRemove .deleteOutcome k) s = some (resp, s') := hexec
  have hstate : s'.find .flowState k = s.find .flowState k :=
    exec_frame hexec (by simp [Op.MayChange])
  have hfact : φ.Fact k s history := hinv.facts _ (mem_cons_self _ _)
  refine Inv.dropOutcome hinv hhost hexec hφ φ.counted_dropped ?_
  cases φ with
  | absent => exact hstate.trans hfact
  | removed thread' observed => exact ⟨hstate.trans hfact.1, hfact.2.cons⟩
  | _ => trivial

/-- A `Harmless` host call. -/
theorem safe_of_harmless {op : Op} (h : Harmless k op) {f : Resp op → Prog β} {Q : Phase → β → Prop}
    (hf : ∀ resp, Safe k thread job Q φ (f resp)) : Safe k thread job Q φ (perform op >>= f) :=
  Outline.Safe.ignore (ignores_of_harmless h) hf

/-- `pollQuiescent` leaves a host that has not committed where it is. -/
theorem safe_pollQuiescent_out (hhost : job.isHost = true) (attempts : Nat) :
    Safe k thread job (fun φ' _ => φ' = .out) .out (pollQuiescent k attempts).run := by
  induction attempts with
  | zero => rfl
  | succ attempts ih =>
    refine Outline.Safe.bindE (Q := fun φ' _ => φ' = .out) ?_ (fun φ' inFlight hφ' => ?_)
      fun φ' _ h => h
    · refine Outline.Safe.perform fun c resp s s' history rest hinv hexec _ =>
        ⟨.out, Inv.poll hinv hhost hexec rfl rfl trivial, ?_⟩
      cases resp with
      | ok count => rfl
      | error error => cases error <;> rfl
    · subst hφ'
      split
      · rfl
      · exact ih

/-- Behind a commit, a `pollQuiescent` that succeeds leads to `.quiescent`. -/
theorem safe_pollQuiescent (hhost : job.isHost = true) (attempts : Nat) :
    Safe k thread job
      (fun φ' result => φ'.counted = false ∧ (result = .ok true → φ' = .quiescent))
      .committing (pollQuiescent k attempts).run := by
  induction attempts with
  | zero => exact ⟨rfl, by simp⟩
  | succ attempts ih =>
    refine Outline.Safe.bindE (Q := fun φ' result =>
      φ' = .quiescent ∧ result = .ok 0 ∨ φ' = .committing ∧ result ≠ .ok 0) ?_ (fun φ' inFlight hφ' => ?_)
      fun φ' error hφ' => ?_
    · refine Outline.Safe.perform fun c resp s s' history rest hinv hexec _ => ?_
      have hcommitted : stage k history ≠ .opened := hinv.facts _ (mem_cons_self _ _)
      by_cases hzero : readsZero resp = true
      · refine ⟨.quiescent, Inv.poll hinv hhost hexec rfl rfl ?_, ?_⟩
        · show Stage.next k (stage k history) _ _ = .quiet
          cases hstage : stage k history with
          | opened => exact absurd hstage hcommitted
          | committed => simp [Stage.next, hzero]
          | quiet => simp [Stage.next]
        · cases resp with
          | ok count => exact .inl ⟨rfl, congrArg Except.ok (by simpa [readsZero] using hzero)⟩
          | error error =>
            cases error with
            | keyNotFound => exact .inl ⟨rfl, rfl⟩
            | elementNotFound => exact .inl ⟨rfl, rfl⟩
            | syscall call => exact absurd hzero (by simp [readsZero])
      · refine ⟨.committing, Inv.poll hinv hhost hexec rfl rfl ?_, ?_⟩
        · show Stage.next k (stage k history) _ _ ≠ .opened
          simpa [Stage.next, hzero] using hcommitted
        · cases resp with
          | ok count =>
            refine .inr ⟨rfl, fun h => hzero ?_⟩
            simpa [readsZero] using Except.ok.inj h
          | error error =>
            cases error with
            | keyNotFound => exact absurd rfl hzero
            | elementNotFound => exact absurd rfl hzero
            | syscall call => exact .inr ⟨rfl, by rintro ⟨⟩⟩
    · rcases hφ' with ⟨rfl, h⟩ | ⟨rfl, h⟩
      · rw [if_pos (Except.ok.inj h)]
        exact ⟨rfl, fun _ => rfl⟩
      · rw [if_neg fun h' => h (congrArg Except.ok h')]
        exact ih
    · rcases hφ' with ⟨rfl, -⟩ | ⟨rfl, -⟩ <;> exact ⟨rfl, by rintro ⟨⟩⟩

/-! ## The routines of a deletion -/

section Routines

variable {expected : ControlService.FlowIndexValue} {observed : UInt64}

theorem safe_armGuard (hhost : job.isHost = true) (deadline : UInt64) :
    Safe k thread job (fun φ' _ => φ' = .out) .out (armGuard k deadline).run := by
  refine safe_dropOutcome hhost rfl fun resp => ?_
  refine safe_of_harmless (.inl (by simp [Concerns, Op.MayChange])) fun resp => ?_
  cases resp <;> rfl

theorem safe_installGuard (hhost : job.isHost = true) (deadline : UInt64) :
    Safe k thread job (fun φ' _ => φ' = .out) .out (installGuard k deadline).run := by
  refine Outline.Safe.bindE (Q := fun φ' _ => φ' = .out) ?_ (fun φ' existing hφ' => ?_)
    fun φ' _ h => h
  · exact safe_of_all (p := (getOption .deleteGuard k).run)
      ⟨.inl (by simp [Concerns, Op.MayChange]), fun _ => trivial⟩
  · subst hφ'
    cases existing with
    | none => exact safe_armGuard hhost deadline
    | some old =>
      refine safe_of_harmless (.inl (by simp [Concerns, Op.MayChange])) fun now => ?_
      simp only [ExceptT.bindCont]
      split
      · rfl
      · refine Outline.Safe.bindE (Q := fun φ' _ => φ' = .out) ?_ (fun φ' _ hφ' => ?_)
          fun φ' _ h => h
        · exact safe_of_all (p := (removeKey .deleteGuard k).run)
            ⟨.inl (by simp [Concerns, Op.MayChange]), fun _ => trivial⟩
        · subst hφ'
          exact safe_armGuard hhost deadline

/-- Where a commit leaves the host: it holds the record it is going to delete, or is done without
having deleted one. -/
def Committed (φ : Phase) : Except BackendError Commit → Prop
  | .ok (.flow record) => φ = .held record
  | .ok (.report report) => φ.counted = false ∧ report.stateDeleted = false
  | .error _ => φ.counted = false

/-- `readCommitted` reads the record behind the second zero count. -/
theorem safe_readCommitted (hhost : job.isHost = true) :
    Safe k thread job Committed .committing (readCommitted k).run := by
  refine Outline.Safe.bindE (safe_pollQuiescent hhost _) (fun φ' quiescent hφ' => ?_)
    fun φ' error hφ' => hφ'.1
  cases quiescent with
  | false => exact ⟨hφ'.1, rfl⟩
  | true =>
    obtain rfl := hφ'.2 rfl
    refine Outline.Safe.perform fun c resp s s' history rest hinv hexec _ => ?_
    obtain ⟨rfl, hresp⟩ := exec_hostGet (c := c) hexec
    have hnot : ¬ Concerns k (.hostGet .flowState k) := by simp [Concerns, Op.MayChange]
    have hstay : Inv k s' (⟨thread, job, c, .hostGet .flowState k, resp, s'⟩ :: history)
        ((job, .quiescent) ::ₘ rest) := Inv.ignore hinv hexec hnot
    rcases hresp with ⟨call, rfl⟩ | ⟨record, hrecord, rfl⟩ | ⟨-, rfl⟩
    · exact ⟨.quiescent, hstay, rfl⟩
    · refine ⟨.held record, ?_, rfl⟩
      exact Inv.read hinv hexec rfl hnot rfl (fun _ _ => rfl)
        ⟨hinv.facts _ (mem_cons_self _ _), hrecord⟩ fun _ => hhost
    · exact ⟨.quiescent, hstay, rfl, rfl⟩

theorem safe_commitDeletion (hhost : job.isHost = true) :
    Safe k thread job Committed .out (commitDeletion k).run := by
  refine Outline.Safe.bindE (Q := fun φ' _ => φ' = .out) ?_ (fun φ' stable hφ' => ?_)
    fun φ' error hφ' => by rw [hφ']; rfl
  · refine Outline.Safe.bindE (safe_pollQuiescent_out hhost _) (fun φ' quiescent hφ' => ?_)
      fun φ' _ h => h
    subst hφ'
    split
    · exact safe_of_all (p := (getOption .flowState k).run)
        ⟨.inl (by simp [Concerns, Op.MayChange]), fun _ => trivial⟩
    · rfl
  · subst hφ'
    cases stable with
    | none => exact ⟨rfl, rfl⟩
    | some record =>
      refine Outline.Safe.perform fun c resp s s' history rest hinv hexec _ =>
        ⟨_, Inv.commit hinv hhost hexec, ?_⟩
      cases resp with
      | error error => exact ⟨rfl, rfl⟩
      | ok => exact safe_readCommitted hhost

/-- Where a cleanup leaves the host: a record reported as deleted was removed by this thread. -/
def Ended (thread : Nat) (observed : UInt64) (φ : Phase) :
    Except BackendError FlowCleanupReport → Prop
  | .ok report =>
    φ.counted = false ∧ (report.stateDeleted = true → φ = .removed thread observed)
  | .error _ => φ.counted = false

/-- `finishCleanup`, for a host that knows the record to be gone. -/
theorem safe_finishCleanup (hφ : φ.counted = false)
    (hgone : ∀ s history, φ.Fact k s history → s.find .flowState k = none)
    (tuples : List TupleKey) (stateDeleted staleGeneration : Bool)
    (hdeleted : stateDeleted = true → φ = .removed thread observed) :
    Safe k thread job (Ended thread observed) φ
      (finishCleanup expected k tuples stateDeleted staleGeneration).run := by
  refine Outline.Safe.bindE
    (safe_of_all ((all_removeIndexes tuples).mono fun _ => harmless_index))
    (fun φ' indexes hφ' => ?_) fun φ' error hφ' => by rw [hφ']; exact hφ
  subst hφ'
  refine Outline.Safe.perform fun c resp s s' history rest hinv hexec _ => ⟨φ', ?_, ?_⟩
  · exact Inv.removeInflight hinv hexec (hgone s history (hinv.facts _ (mem_cons_self _ _)))
  · refine Outline.Safe.bindE (Q := fun φ'' _ => φ'' = φ')
      (safe_of_all (p := (publishRelease k).run) ?_)
      (fun φ'' unpublished hφ'' => ?_) fun φ'' error hφ'' => by rw [hφ'']; exact hφ
    · refine Program.All.bindE (p := getOption _ _)
        ⟨.inl (by simp [Concerns, Op.MayChange]), fun _ => trivial⟩ fun pending => ?_
      cases pending with
      | none => trivial
      | some _ => exact ⟨.inl (by simp [Concerns, Op.MayChange]), fun _ => trivial⟩
    · subst hφ''
      exact ⟨hφ, hdeleted⟩

/-- `removeRecord` of the record the host holds. -/
theorem safe_removeRecord (hhost : job.isHost = true) {record : FlowStateValue}
    (hobserved : observed ≠ 0 → record.lastUsedNs = observed) (tuples : List TupleKey) :
    Safe k thread job (Ended thread observed) (.held record) (removeRecord expected k tuples).run := by
  refine safe_of_harmless (.inl (by simp [Concerns, Op.MayChange])) fun journaled => ?_
  cases journaled with
  | error error => exact rfl
  | ok =>
    refine Outline.Safe.perform fun c resp s s' history rest hinv hexec _ =>
      ⟨_, Inv.removeRecord hinv hhost hexec hobserved, ?_⟩
    cases resp with
    | ok =>
      exact safe_finishCleanup (φ := .removed thread observed) rfl (fun _ _ h => h.1) tuples true
        false fun _ => rfl
    | error error =>
      refine safe_of_harmless (.inl (by simp [Concerns, Op.MayChange])) fun withdrawn => ?_
      refine safe_of_harmless (.inl (by simp [Concerns, Op.MayChange])) fun pending => ?_
      cases pending with
      | ok value => exact ⟨rfl, by rintro ⟨⟩⟩
      | error error =>
        cases error with
        | syscall call => exact rfl
        | _ => exact ⟨rfl, by rintro ⟨⟩⟩

theorem safe_cleanupRecord (hhost : job.isHost = true) (record : FlowStateValue) :
    Safe k thread job (Ended thread observed) (.held record)
      (cleanupRecord expected k observed record).run := by
  unfold cleanupRecord
  generalize hbytes : record.pack = bytes
  cases hdecode : decodeFlowState bytes with
  | error error => exact rfl
  | ok flow =>
    simp only [decoded, pure_bind]
    split
    · exact ⟨rfl, by rintro ⟨⟩⟩
    · rename_i hmatch
      refine safe_removeRecord hhost (fun hne => ?_) _
      subst hbytes
      rw [← lastUsedNs_of_decode_pack hdecode]
      by_contra hdiff
      exact hmatch ⟨hne, hdiff⟩

theorem safe_cleanupAbsent :
    Safe k thread job (Ended thread observed) .absent (cleanupAbsent expected k).run := by
  have hindexes : Safe k thread job (fun φ' _ => φ' = .absent) .absent decodedIndexes.run :=
    safe_of_all (all_decodedIndexes.mono fun _ => harmless_index)
  unfold cleanupAbsent
  refine hindexes.bindE (fun φ' entries hφ' => ?_) fun φ' error hφ' => by rw [hφ']; rfl
  subst hφ'
  refine hindexes.bindE (fun φ' entries hφ' => ?_) fun φ' error hφ' => by rw [hφ']; rfl
  subst hφ'
  exact safe_finishCleanup (φ := .absent) rfl (fun _ _ h => h) _ false _ fun h => (nomatch h)

theorem safe_guardedCleanup (hhost : job.isHost = true) :
    Safe k thread job (Ended thread observed) .out (guardedCleanup expected k observed).run := by
  unfold guardedCleanup
  refine (safe_commitDeletion hhost).bindE (fun φ' commit hφ' => ?_) fun φ' error hφ' => hφ'
  cases commit with
  | report report => exact ⟨hφ'.1, fun h => absurd h (by simp [hφ'.2])⟩
  | flow record =>
    obtain rfl : φ' = .held record := hφ'
    exact safe_cleanupRecord hhost record

/-- The end of a round keeps what the cleanup `Ended` with. -/
theorem Ended.conclude {result : Except BackendError FlowCleanupReport}
    (h : Ended thread observed φ result) (failures : List String) :
    Ended thread observed φ.dropped (concludeDeletion result failures) := by
  cases result with
  | error error =>
    simp only [concludeDeletion]
    split <;> exact φ.counted_dropped
  | ok report =>
    have hdropped : report.stateDeleted = true → φ.dropped = .removed thread observed := by
      intro hdeleted
      rw [h.2 hdeleted]
      rfl
    simp only [concludeDeletion]
    split <;> exact ⟨φ.counted_dropped, hdropped⟩

theorem safe_guardedRound (hhost : job.isHost = true) :
    Safe k thread job (Ended thread observed) .out (guardedRound expected k observed).run := by
  unfold guardedRound
  refine Outline.Safe.bindE (Q := fun φ' result =>
    ∃ cleanup, result = .ok cleanup ∧ Ended thread observed φ' cleanup) ?_ (fun φ' cleanup hφ' => ?_)
    fun φ' error ⟨_, h, _⟩ => (nomatch h)
  · rw [run_attempt]
    exact (safe_guardedCleanup hhost).bind fun φ' cleanup hφ' => ⟨cleanup, rfl, hφ'⟩
  · obtain ⟨_, h, hended⟩ := hφ'
    cases h
    have hcounted : φ'.counted = false := by
      cases cleanup with
      | ok report => exact hended.1
      | error error => exact hended
    refine safe_of_harmless (.inl (by simp [Concerns, Op.MayChange])) fun guardRemoved => ?_
    exact safe_dropOutcome hhost hcounted fun outcomeRemoved => hended.conclude _

/-- **`delete_flow` of the flow is `Safe`.** -/
theorem safe_deleteFlow (hhost : job.isHost = true) {flowId : UInt64} {generation : UInt32}
    (hkey : stateKeyOf flowId generation = k) (deadline : UInt64) :
    Safe k thread job (Ended thread observed) .out
      (deleteFlow flowId generation observed deadline).run := by
  simp only [deleteFlow, unpack_encodeFlowStateKey, hkey]
  refine Outline.Safe.bindE (Q := fun φ' result =>
    φ' = .absent ∧ result = .ok none ∨ φ' = .out ∧ result ≠ .ok none) ?_
    (fun φ' initial hφ' => ?_) fun φ' error hφ' => ?_
  · refine Outline.Safe.perform fun c resp s s' history rest hinv hexec _ => ?_
    obtain ⟨rfl, hresp⟩ := exec_hostGet (c := c) hexec
    have hnot : ¬ Concerns k (.hostGet .flowState k) := by simp [Concerns, Op.MayChange]
    have hstay : Inv k s' (⟨thread, job, c, .hostGet .flowState k, resp, s'⟩ :: history)
        ((job, .out) ::ₘ rest) := Inv.ignore hinv hexec hnot
    rcases hresp with ⟨call, rfl⟩ | ⟨record, -, rfl⟩ | ⟨hnone, rfl⟩
    · exact ⟨.out, hstay, .inr ⟨rfl, by rintro ⟨⟩⟩⟩
    · exact ⟨.out, hstay, .inr ⟨rfl, by rintro ⟨⟩⟩⟩
    · exact ⟨.absent, Inv.read hinv hexec rfl hnot rfl (fun _ _ => rfl) hnone fun _ => hhost,
        .inl ⟨rfl, rfl⟩⟩
  · rcases hφ' with ⟨rfl, h⟩ | ⟨rfl, h⟩
    · cases h
      refine safe_of_harmless (.inl (by simp [Concerns, Op.MayChange])) fun guardRemoved => ?_
      exact safe_dropOutcome hhost rfl fun outcomeRemoved => safe_cleanupAbsent
    · cases initial with
      | none => exact absurd rfl h
      | some record =>
        refine (safe_installGuard hhost deadline).bindE (fun φ' armed hφ' => ?_)
          fun φ' error hφ' => by rw [hφ']; rfl
        subst hφ'
        split
        · exact safe_guardedRound hhost
        · exact ⟨rfl, by rintro ⟨⟩⟩
  · rcases hφ' with ⟨rfl, -⟩ | ⟨rfl, -⟩ <;> rfl

end Routines

/-! ## Every interleaving -/

/-- Every job is `Safe` from `.out`. -/
theorem safe_code {slots : Slots} (hslots : slots.Proper) (job : Job) :
    Safe k thread job ((outline k).ends thread job) .out (job.code slots) := by
  -- A job other than a deletion of the flow has nothing to report.
  have hother : ∀ value, (∀ observed, ¬ ReportsRemoval k job value observed) →
      (outline k).ends thread job .out value :=
    fun value h => ⟨rfl, fun observed hreports => absurd hreports (h observed)⟩
  cases job with
  | packet frame ingress =>
    refine (safe_processPacket hslots frame ingress).bind fun φ' result hφ' => ?_
    subst hφ'
    refine hother _ ?_
    rintro observed ⟨_, _, _, _, ⟨⟩, _⟩
  | delete flowId generation observed deadline =>
    by_cases hkey : stateKeyOf flowId generation = k
    · refine (safe_deleteFlow rfl hkey deadline).bind fun φ' result hφ' => ?_
      cases result with
      | error error =>
        refine ⟨hφ', ?_⟩
        rintro observed' ⟨_, _, _, _, _, _, ⟨⟩, _⟩
      | ok report =>
        refine ⟨hφ'.1, ?_⟩
        rintro observed' ⟨_, _, _, report', ⟨⟩, _, ⟨⟩, hdeleted⟩
        exact hφ'.2 hdeleted
    · refine (safe_of_all ((all_deleteFlow flowId generation observed deadline).mono
        fun _ => harmless_host hkey)).bind fun φ' result hφ' => ?_
      subst hφ'
      refine hother _ ?_
      rintro observed' ⟨_, _, _, _, ⟨⟩, hkey', _⟩
      exact hkey hkey'
  | setConfig config =>
    refine (safe_of_all ((all_setRuntimeConfig config).mono ?_)).bind fun φ' result hφ' => ?_
    · rintro _ ⟨value, rfl⟩
      exact .inl (by simp [Concerns, Op.MayChange])
    · subst hφ'
      refine hother _ ?_
      rintro observed ⟨_, _, _, _, ⟨⟩, _⟩
  | listFlows =>
    refine (safe_of_all (all_listFlowStates.mono ?_)).bind fun φ' result hφ' => ?_
    · rintro _ rfl
      exact .inl (by simp [Concerns, Op.MayChange])
    · subst hφ'
      refine hother _ ?_
      rintro observed ⟨_, _, _, _, ⟨⟩, _⟩

/-- A thread that is not `counted` may return. -/
theorem Inv.retire {s : Maps} {history : List SystemEvent} {rest : Multiset (Job × Phase)}
    (hinv : Inv k s history ((job, φ) ::ₘ rest)) (hφ : φ.counted = false) : Inv k s history rest where
  count n hn := by
    rw [hinv.count n hn, inFlight_cons, hφ]
    simp
  counted := hinv.counted
  outcome := hinv.outcome
  excluded hquiet h x hx := hinv.excluded hquiet h x (mem_cons_of_mem hx)
  facts x hx := hinv.facts x (mem_cons_of_mem hx)
  roles := hinv.roles.retire
  writes := hinv.writes

/-- A starting thread is `.out`. -/
theorem Inv.spawn {s : Maps} {history : List SystemEvent} {running : Multiset (Job × Phase)}
    (hinv : Inv k s history running)
    (hrole : job.isHost = true → ∀ x ∈ running, x.1.isHost = false) :
    Inv k s history ((job, .out) ::ₘ running) where
  count n hn := by
    rw [hinv.count n hn, inFlight_cons]
    simp [Phase.counted]
  counted := hinv.counted
  outcome := hinv.outcome
  excluded hquiet h x hx := by
    rcases mem_cons.mp hx with rfl | hx
    · rfl
    · exact hinv.excluded hquiet h x hx
  facts x hx := by
    rcases mem_cons.mp hx with rfl | hx
    · trivial
    · exact hinv.facts x hx
  roles := hinv.roles.spawn rfl hrole
  writes := hinv.writes

/-- The outline holds of the system, from any maps in which nobody is inside the flow. -/
theorem outline_valid {slots : Slots} (hslots : slots.Proper) {s₀ : Maps}
    (hcount : s₀.find .packetInflight k = some 0) : (outline k).Valid (system slots) s₀ where
  start :=
    { count := fun n hn => by
        rw [hcount, Option.some.injEq] at hn
        rw [← hn]
        rfl
      counted := fun _ => by
        rw [hcount]
        rfl
      outcome := fun h => absurd rfl h
      excluded := fun h => (nomatch h)
      facts := fun x hx => absurd hx (Multiset.notMem_zero x)
      roles := roles_zero
      writes := trivial }
  spawn job s history running threads hinv hadmits hrunning :=
    ⟨.out, Inv.spawn hinv fun hhost => not_host_of_admits hadmits hrunning hhost,
      fun thread => safe_code hslots job⟩
  retire thread job φ value s history rest hends hinv := by
    refine ⟨Inv.retire hinv hends.1, fun observed hreports => ?_⟩
    have hfact : φ.Fact k s history := hinv.facts _ (mem_cons_self _ _)
    rw [hends.2 observed hreports] at hfact
    exact hfact.2
  settled_cons thread job value e history h observed hreports := (h observed hreports).cons

/-- **Packets and deletions exclude each other.** In every interleaving of classifier runs and host
calls that starts with nobody inside the flow and stays with one incarnation of it: a packet writes
the record only outside the window between the host's zero read behind the commit and its removal of
record or outcome, and only while the record is in the map; and a deletion that reports success for
an observation removed a record that agreed with the observation at that moment. -/
theorem deletion_excludes_packets {s₀ : Maps} {w : SystemWorld}
    (hcount : s₀.find .packetInflight k = some 0)
    (hreach : (system Slots.split).Reachable (World.start s₀) w)
    (honce : ∀ e ∈ w.history, creates k e.op e.resp = false) :
    (∀ later e earlier write, w.history = later ++ e :: earlier → e.op = .stateStore k write →
      stage k earlier ≠ .quiet ∧ (e.before.find .flowState k).isSome) ∧
    ∀ i flowId generation observed deadline report, stateKeyOf flowId generation = k →
      w.returned i = some (.delete flowId generation observed deadline, .report (.ok report)) →
      report.stateDeleted = true → observed ≠ 0 →
      ∃ e ∈ w.history, e.thread = i ∧
        (⟨e.op, e.resp⟩ : Program.Answer Op Resp) = ⟨.hostRemove .flowState k, .ok ()⟩ ∧
        ∃ record, e.before.find .flowState k = some record ∧ record.lastUsedNs = observed := by
  have hvalid := outline_valid Slots.proper_split hcount
  refine ⟨fun later e earlier write hhistory hop => ?_,
    fun i flowId generation observed deadline report hkey hreturned hdeleted hobserved => ?_⟩
  · obtain ⟨running, hinv⟩ := hvalid.inv hreach honce
    have hwrites : WritesLand k w.history := hinv.writes
    rw [hhistory] at hwrites
    exact hwrites.at hop
  · obtain ⟨e, he, hthread, hanswer, record, hrecord, hmatch⟩ :=
      hvalid.settled hreach honce hreturned observed
        ⟨flowId, generation, deadline, report, rfl, hkey, rfl, hdeleted⟩
    exact ⟨e, he, hthread, hanswer, record, hrecord, hmatch hobserved⟩

/-- A packet of the sample flow, then the deletion of the flow with the observation that packet
left. -/
def sampleSchedule : List (Action Job Choice) :=
  .spawn (.packet sampleFrame true) :: List.replicate 14 (.step 0 { now := 7 }) ++
    .spawn (.delete sampleFlow.flowId 1 7 100) :: List.replicate 22 (.step 1 { now := 8 })

theorem deletion_excludes_packets_sample :
    ∃ w : SystemWorld, (system Slots.split).Reachable (World.start sampleMaps) w ∧
      ∃ e ∈ w.history, e.thread = 1 ∧
        (⟨e.op, e.resp⟩ : Program.Answer Op Resp) = ⟨.hostRemove .flowState sampleKey, .ok ()⟩ ∧
        ∃ record, e.before.find .flowState sampleKey = some record ∧ record.lastUsedNs = 7 := by
  have hrun : ((system Slots.split).run (World.start sampleMaps) sampleSchedule).any (fun w =>
      w.returned 1 = some (.delete sampleFlow.flowId 1 7 100,
        .report (.ok { stateDeleted := true, indexesDeleted := 3 })) &&
      w.history.all fun e => !creates sampleKey e.op e.resp) = true := by
    decide +kernel
  obtain ⟨w, hreach, hcheck⟩ := Pool.exists_reachable_of_run hrun
  simp only [Bool.and_eq_true, decide_eq_true_eq, List.all_eq_true, Bool.not_eq_true'] at hcheck
  exact ⟨w, hreach, (deletion_excludes_packets (k := sampleKey) (by decide +kernel) hreach
    hcheck.2).2 1 _ _ 7 100 _ rfl hcheck.1 rfl (by decide)⟩

end ShadowSocketProxy.Deletion
