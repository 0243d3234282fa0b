import ShadowSocketProxy.System

/-! # Deletion rounds

Where the deletion of one flow stands, and what that means for the packets inside the flow. The
argument rests on two records alone: the commit in the outcome map, which no packet can overwrite,
and the in-flight count the host reads behind it. The guard only shortens the wait; nothing below
depends on it, so stale packets may remove guards or abort rounds as they like. -/

namespace ShadowSocketProxy.Deletion

open Interleaving Bpf ControlService
open Multiset (mem_cons mem_cons_of_mem mem_cons_self)

/-! ## Stages -/

/-- Where the deletion rounds of a flow stand. -/
inductive Stage where
  /-- No commit is in force. -/
  | opened
  /-- The host has committed and not read a zero in-flight count since. -/
  | committed
  /-- The host has read a zero in-flight count after its commit. -/
  | quiet
  deriving DecidableEq

/-- Whether the host takes an in-flight read for zero; an absent count counts as zero. -/
def readsZero : Except MapError Int → Bool
  | .ok count => count = 0
  | .error .keyNotFound => true
  | .error .elementNotFound => true
  | .error (.syscall _) => false

/-- The stage after one answered operation: a commit, an in-flight read behind it, and the removal of
the record or of the outcome change it. -/
def Stage.next (k : FlowStateKey) (stage : Stage) : (op : Op) → Resp op → Stage
  | .hostInsert .deleteOutcome key value _, .ok () =>
    if key = k ∧ value = flowDeleteCommitted then .committed else stage
  | .hostGet .packetInflight key, resp =>
    if key = k ∧ stage = .committed ∧ readsZero resp then .quiet else stage
  | .hostRemove .flowState key, .ok () => if key = k then .opened else stage
  | .hostRemove .deleteOutcome key, .ok () => if key = k then .opened else stage
  | _, _ => stage

/-- The stage after a history, whose latest operation comes first. -/
def stage (k : FlowStateKey) : List SystemEvent → Stage
  | [] => .opened
  | e :: history => (stage k history).next k e.op e.resp

@[simp] theorem stage_nil (k : FlowStateKey) : stage k [] = .opened := rfl

@[simp] theorem stage_cons (k : FlowStateKey) (e : SystemEvent) (history : List SystemEvent) :
    stage k (e :: history) = (stage k history).next k e.op e.resp := rfl

/-- Every packet write into the flow's record so far was executed outside a quiet stage and in a
record that was in the map. -/
def WritesLand (k : FlowStateKey) : List SystemEvent → Prop
  | [] => True
  | e :: history =>
    (∀ write, e.op = .stateStore k write →
      stage k history ≠ .quiet ∧ (e.before.find .flowState k).isSome) ∧ WritesLand k history

/-- What `WritesLand` says of one write in the middle of a history. -/
theorem WritesLand.at {k : FlowStateKey} {later earlier : List SystemEvent} {e : SystemEvent}
    (h : WritesLand k (later ++ e :: earlier)) {write : StateUpdate}
    (hop : e.op = .stateStore k write) :
    stage k earlier ≠ .quiet ∧ (e.before.find .flowState k).isSome := by
  induction later with
  | nil => exact h.1 write hop
  | cons e' later ih => exact ih h.2

/-- `thread` removed the record of the flow, and if it came with an observation the record agreed
with it. -/
def RemovedBy (k : FlowStateKey) (thread : Nat) (observed : UInt64)
    (history : List SystemEvent) : Prop :=
  ∃ e ∈ history, e.thread = thread ∧
    (⟨e.op, e.resp⟩ : Program.Answer Op Resp) = ⟨.hostRemove .flowState k, .ok ()⟩ ∧
    ∃ record, e.before.find .flowState k = some record ∧
      (observed ≠ 0 → record.lastUsedNs = observed)

/-! ## Phases -/

/-- Where a thread stands towards the flow. -/
inductive Phase where
  /-- Not inside the flow. -/
  | out
  /-- Counted, and without a write ahead unless the outcome is read first. -/
  | inside
  /-- Counted, and past an outcome read that did not show a commit. -/
  | cleared
  /-- Counted and admitted: the write is still to come. -/
  | admitted
  /-- Host: committed, waiting for packets to leave. -/
  | committing
  /-- Host: read a zero count behind the commit. -/
  | quiescent
  /-- Host: read the record behind the zero count. -/
  | held (record : FlowStateValue)
  /-- Host: found no record. -/
  | absent
  /-- Host: removed the record. -/
  | removed (thread : Nat) (observed : UInt64)

namespace Phase

/-- Whether a thread in the phase is counted in flight. -/
def counted : Phase → Bool
  | .inside | .cleared | .admitted => true
  | _ => false

/-- Whether a thread in the phase may still write without looking at the outcome again. -/
def risky : Phase → Bool
  | .cleared | .admitted => true
  | _ => false

/-- Whether the phase belongs to a deletion round of the host. -/
def isRound : Phase → Bool
  | .committing | .quiescent | .held _ | .absent | .removed _ _ => true
  | _ => false

/-- What a phase says about the maps and the history. -/
def Fact (k : FlowStateKey) (s : Maps) (history : List SystemEvent) : Phase → Prop
  | .admitted => (s.find .flowState k).isSome
  | .committing => stage k history ≠ .opened
  | .quiescent => stage k history = .quiet
  | .held record => stage k history = .quiet ∧ s.find .flowState k = some record
  | .absent => s.find .flowState k = none
  | .removed thread observed =>
    s.find .flowState k = none ∧ RemovedBy k thread observed history
  | _ => True

end Phase

/-! ## The invariant -/

/-- The number of counted threads. -/
def inFlight (running : Multiset (Job × Phase)) : Nat :=
  running.countP fun x => x.2.counted = true

/-- The invariant of the deletion rounds of one flow. -/
structure Inv (k : FlowStateKey) (s : Maps) (history : List SystemEvent)
    (running : Multiset (Job × Phase)) : Prop where
  /-- The in-flight count is the number of counted threads. -/
  count : ∀ n, s.find .packetInflight k = some n → n = inFlight running
  /-- A record has an in-flight count. -/
  counted : (s.find .flowState k).isSome → (s.find .packetInflight k).isSome
  /-- A commit in force is in the outcome map. -/
  outcome : stage k history ≠ .opened → s.find .deleteOutcome k = some flowDeleteCommitted
  /-- In a quiet stage no thread can write a record that is there. -/
  excluded : stage k history = .quiet → (s.find .flowState k).isSome →
    ∀ x ∈ running, x.2.risky = false
  /-- The phases tell the truth. -/
  facts : ∀ x ∈ running, x.2.Fact k s history
  /-- The threads keep to their roles. -/
  roles : Roles Job.isHost Phase.isRound running
  /-- The writes so far were all right. -/
  writes : WritesLand k history

section Steps

variable {k : FlowStateKey} {s s' : Maps} {history : List SystemEvent} {e : SystemEvent} {job : Job}
  {φ φ' : Phase} {running rest : Multiset (Job × Phase)} {resp : Except MapError Unit} {op : Op}

/-- A phase outside a round keeps its `Fact` as long as the record stays. -/
theorem Phase.Fact.of_not_round {history' : List SystemEvent} (h : φ.Fact k s history)
    (hround : φ.isRound = false)
    (hrecord : (s.find .flowState k).isSome → φ = .admitted → (s'.find .flowState k).isSome) :
    φ.Fact k s' history' := by
  cases φ with
  | admitted => exact hrecord h rfl
  | committing | quiescent | held | absent | removed => exact absurd hround (by simp [isRound])
  | _ => trivial

/-- What was `RemovedBy` a thread stays so. -/
theorem RemovedBy.cons {thread : Nat} {observed : UInt64} (h : RemovedBy k thread observed history) :
    RemovedBy k thread observed (e :: history) := by
  obtain ⟨e', he', hrest⟩ := h
  exact ⟨e', List.mem_cons_of_mem _ he', hrest⟩

/-- A phase keeps its `Fact` when neither the record nor the `stage` changes. -/
theorem Phase.Fact.of_same (h : φ.Fact k s history)
    (hstate : s'.find .flowState k = s.find .flowState k)
    (hstage : stage k (e :: history) = stage k history) : φ.Fact k s' (e :: history) := by
  cases φ with
  | removed thread observed =>
    exact ⟨hstate.trans h.1, h.2.cons⟩
  | admitted | committing | quiescent | held | absent =>
    simpa only [Fact, hstate, hstage] using h
  | _ => trivial

/-! ### Operations that do not matter -/

/-- Whether an operation may matter for the rounds of the flow. -/
def Concerns (k : FlowStateKey) (op : Op) : Prop :=
  op.MayChange .flowState k ∨ op.MayChange .packetInflight k ∨ op.MayChange .deleteOutcome k ∨
    op = .hostGet .packetInflight k

/-- Only operations that `Concerns` the flow change the stage. -/
theorem next_of_not_concerns (h : ¬ Concerns k op) (st : Stage) (resp : Resp op) :
    st.next k op resp = st := by
  simp only [Concerns, not_or] at h
  obtain ⟨hstate, -, houtcome, hget⟩ := h
  fun_cases Stage.next k st op resp with
  | case1 key value flag hkey => exact absurd (by rw [hkey.1]; rfl) houtcome
  | case3 key resp hkey => exact absurd (by rw [hkey.1]) hget
  | case5 => exact absurd rfl hstate
  | case7 => exact absurd rfl houtcome
  | _ => rfl

/-- `Inv` behind a thread that moves and at most in-flight count or outcome of the flow changing. -/
theorem Inv.move (hinv : Inv k s history ((job, φ) ::ₘ rest))
    (hstate : s'.find .flowState k = s.find .flowState k)
    (hstage : stage k (e :: history) = stage k history)
    (hstore : ∀ write, e.op ≠ .stateStore k write)
    (hcount : ∀ n, s'.find .packetInflight k = some n → n = inFlight ((job, φ') ::ₘ rest))
    (hcounted : (s.find .packetInflight k).isSome → (s'.find .packetInflight k).isSome)
    (houtcome : s.find .deleteOutcome k = some flowDeleteCommitted →
      s'.find .deleteOutcome k = some flowDeleteCommitted)
    (hrisky : stage k history = .quiet → (s.find .flowState k).isSome → φ'.risky = false)
    (hfact : φ'.Fact k s history) (hround : φ'.isRound = true → job.isHost = true) :
    Inv k s' (e :: history) ((job, φ') ::ₘ rest) where
  count := hcount
  counted h := hcounted (hinv.counted (hstate ▸ h))
  outcome h := houtcome (hinv.outcome (hstage ▸ h))
  excluded hquiet h x hx := by
    rw [hstage] at hquiet
    rw [hstate] at h
    rcases mem_cons.mp hx with rfl | hx
    · exact hrisky hquiet h
    · exact hinv.excluded hquiet h x (mem_cons_of_mem hx)
  facts x hx := by
    rcases mem_cons.mp hx with rfl | hx
    · exact hfact.of_same hstate hstage
    · exact (hinv.facts x (mem_cons_of_mem hx)).of_same hstate hstage
  roles := hinv.roles.move hround
  writes := ⟨fun write hop => absurd hop (hstore write), hinv.writes⟩

/-- An operation that does not concern the flow keeps `Inv`. -/
theorem Inv.ignore {c : Choice} {resp : Resp op} {thread : Nat}
    (hinv : Inv k s history ((job, φ) ::ₘ rest)) (hexec : exec c op s = some (resp, s'))
    (h : ¬ Concerns k op) :
    Inv k s' (⟨thread, job, c, op, resp, s⟩ :: history) ((job, φ) ::ₘ rest) := by
  have hstage : stage k (⟨thread, job, c, op, resp, s⟩ :: history) = stage k history :=
    next_of_not_concerns h _ _
  simp only [Concerns, not_or] at h
  obtain ⟨h₁, h₂, h₃, -⟩ := h
  refine hinv.move (exec_frame hexec h₁) hstage (fun write hop => ?_) (fun n hn => ?_)
    (fun hn => ?_) (fun ho => ?_) (fun hquiet hs => ?_) ?_ ?_
  · rw [show op = _ from hop] at h₁
    exact h₁ rfl
  · rw [exec_frame hexec h₂] at hn
    exact hinv.count n hn
  · rw [exec_frame hexec h₂]
    exact hn
  · rw [exec_frame hexec h₃]
    exact ho
  · exact hinv.excluded hquiet hs _ (mem_cons_self _ _)
  · exact hinv.facts _ (mem_cons_self _ _)
  · exact hinv.roles.host _ (mem_cons_self _ _)

/-! ### Steps of a packet inside the flow -/

variable {c : Choice} {thread : Nat}

theorem inFlight_cons (x : Job × Phase) (running : Multiset (Job × Phase)) :
    inFlight (x ::ₘ running) = inFlight running + if x.2.counted = true then 1 else 0 := by
  rw [inFlight, inFlight, Multiset.countP_cons]

/-- Phases that are `counted` alike are interchangeable in `inFlight`. -/
theorem inFlight_congr (h : φ'.counted = φ.counted) :
    inFlight ((job, φ') ::ₘ rest) = inFlight ((job, φ) ::ₘ rest) := by
  rw [inFlight_cons, inFlight_cons, h]

/-- `inflightAdd`, on entering or leaving: the count follows the phase. -/
theorem Inv.shift {delta : Int} {resp : Unit} (hinv : Inv k s history ((job, φ) ::ₘ rest))
    (hexec : exec c (.inflightAdd k delta) s = some (resp, s'))
    (hdelta : (inFlight ((job, φ') ::ₘ rest) : Int) = inFlight ((job, φ) ::ₘ rest) + delta)
    (hrisky : φ'.risky = false) (hfact : φ'.Fact k s history) (hround : φ'.isRound = false) :
    Inv k s' (⟨thread, job, c, .inflightAdd k delta, resp, s⟩ :: history)
      ((job, φ') ::ₘ rest) := by
  have hcount : (∃ n, s.find .packetInflight k = some n ∧
      s'.find .packetInflight k = some (n + delta)) ∨
      s.find .packetInflight k = none ∧ s'.find .packetInflight k = none := by
    simp only [exec] at hexec
    split at hexec
    · rename_i n hn
      cases hexec
      exact .inl ⟨n, hn, Maps.find_put_self _ _ _ _⟩
    · rename_i hn
      cases hexec
      exact .inr ⟨hn, hn⟩
  refine hinv.move (exec_frame hexec (by rintro ⟨⟩)) rfl (fun write => by simp) (fun n hn => ?_)
    (fun hn => ?_) (fun ho => ?_) (fun _ _ => hrisky) hfact (fun h => ?_)
  · rcases hcount with ⟨n', hn', hput⟩ | ⟨-, hnone⟩
    · rw [hput, Option.some.injEq] at hn
      rw [hdelta, ← hn, hinv.count n' hn']
    · rw [hnone] at hn
      cases hn
  · rcases hcount with ⟨n', -, hput⟩ | ⟨hnone, -⟩
    · rw [hput]
      rfl
    · rw [hnone] at hn
      cases hn
  · rw [exec_frame hexec (by rintro ⟨⟩)]
    exact ho
  · rw [hround] at h
    cases h

/-- A read moves the thread to a phase that is `counted` alike. -/
theorem Inv.read {resp : Resp op} (hinv : Inv k s history ((job, φ) ::ₘ rest))
    (hexec : exec c op s = some (resp, s')) (hsame : s' = s) (hop : ¬ Concerns k op)
    (hcounted : φ'.counted = φ.counted)
    (hrisky : stage k history = .quiet → (s.find .flowState k).isSome → φ'.risky = false)
    (hfact : φ'.Fact k s history) (hround : φ'.isRound = true → job.isHost = true) :
    Inv k s' (⟨thread, job, c, op, resp, s⟩ :: history) ((job, φ') ::ₘ rest) := by
  subst hsame
  refine hinv.move rfl (next_of_not_concerns hop _ _) (fun write h => ?_) (fun n hn => ?_)
    (fun h => h) (fun h => h) hrisky hfact hround
  · rw [show op = _ from h] at hop
    exact hop (.inl rfl)
  · rw [inFlight_congr hcounted]
    exact hinv.count n hn

/-- An expired guard aborts the round only when no commit is in force. -/
theorem Inv.abort {value : UInt32} {resp : Bool} (hinv : Inv k s history ((job, φ) ::ₘ rest))
    (hexec : exec c (.update .deleteOutcome k value .noexist) s = some (resp, s')) :
    Inv k s' (⟨thread, job, c, .update .deleteOutcome k value .noexist, resp, s⟩ :: history)
      ((job, φ) ::ₘ rest) := by
  refine hinv.move (exec_frame hexec (by rintro ⟨⟩)) rfl (fun write => by simp) (fun n hn => ?_)
    (fun hn => ?_) (fun ho => ?_) (fun hquiet hs => ?_) (hinv.facts _ (mem_cons_self _ _))
    (hinv.roles.host _ (mem_cons_self _ _))
  · rw [exec_frame hexec (by rintro ⟨⟩)] at hn
    exact hinv.count n hn
  · rw [exec_frame hexec (by rintro ⟨⟩)]
    exact hn
  · -- A present outcome refuses the insert.
    simp only [exec, ho, UpdateFlag.refuses, Option.isSome_some, Bool.or_true, if_true] at hexec
    cases hexec
    exact ho
  · exact hinv.excluded hquiet hs _ (mem_cons_self _ _)

/-- `stateStore` of an admitted packet: the stage is not quiet, so no round relies on the record. -/
theorem Inv.store {write : StateUpdate} {resp : Unit}
    (hinv : Inv k s history ((job, .admitted) ::ₘ rest))
    (hexec : exec c (.stateStore k write) s = some (resp, s')) :
    Inv k s' (⟨thread, job, c, .stateStore k write, resp, s⟩ :: history)
      ((job, .inside) ::ₘ rest) := by
  have hpresent : (s.find .flowState k).isSome := hinv.facts _ (mem_cons_self _ _)
  have hnotquiet : stage k history ≠ .quiet := fun hquiet =>
    absurd (hinv.excluded hquiet hpresent _ (mem_cons_self _ _)) (by simp [Phase.risky])
  have hpresent' : (s'.find .flowState k).isSome := by
    obtain ⟨record, hrecord⟩ := Option.isSome_iff_exists.mp hpresent
    simp only [exec, hrecord] at hexec
    cases hexec
    rw [Maps.find_put_self]
    rfl
  exact
    { count := fun n hn => by
        rw [exec_frame hexec (by rintro ⟨⟩)] at hn
        have hcongr : inFlight ((job, .inside) ::ₘ rest) = inFlight ((job, .admitted) ::ₘ rest) :=
          inFlight_congr rfl
        rw [hcongr]
        exact hinv.count n hn
      counted := fun _ => by
        rw [exec_frame hexec (by rintro ⟨⟩)]
        exact hinv.counted hpresent
      outcome := fun h => by
        rw [exec_frame hexec (by rintro ⟨⟩)]
        exact hinv.outcome h
      excluded := fun hquiet => absurd hquiet hnotquiet
      facts := fun x hx => by
        rcases mem_cons.mp hx with rfl | hx
        · trivial
        · have hfact := hinv.facts x (mem_cons_of_mem hx)
          cases hφ : x.2 with
          | admitted => exact hpresent'
          | committing | quiescent =>
            rw [hφ] at hfact
            exact hfact
          | held record =>
            rw [hφ] at hfact
            exact absurd hfact.1 hnotquiet
          | absent =>
            rw [hφ] at hfact
            rw [show s.find .flowState k = none from hfact] at hpresent
            cases hpresent
          | removed thread' observed =>
            rw [hφ] at hfact
            rw [hfact.1] at hpresent
            cases hpresent
          | _ => trivial
      roles := hinv.roles.move (by simp [Phase.isRound])
      writes := ⟨fun _ _ => ⟨hnotquiet, hpresent⟩, hinv.writes⟩ }

/-! ### Steps of the host -/

theorem Phase.risky_of_not_counted (h : φ.counted = false) : φ.risky = false := by
  cases φ with
  | inside | cleared | admitted => exact absurd h (by simp [counted])
  | _ => rfl

/-- A step of the host that touches neither the record nor the in-flight count. -/
theorem Inv.hostStep (hinv : Inv k s history ((job, φ) ::ₘ rest)) (hhost : job.isHost = true)
    (hstate : s'.find .flowState k = s.find .flowState k)
    (hinflight : s'.find .packetInflight k = s.find .packetInflight k)
    (hstore : ∀ write, e.op ≠ .stateStore k write)
    (houtcome : stage k (e :: history) ≠ .opened →
      s'.find .deleteOutcome k = some flowDeleteCommitted)
    (hexcluded : stage k (e :: history) = .quiet → (s.find .flowState k).isSome →
      ∀ x ∈ rest, x.2.risky = false)
    (hφ : φ.counted = false) (hφ' : φ'.counted = false) (hfact : φ'.Fact k s' (e :: history)) :
    Inv k s' (e :: history) ((job, φ') ::ₘ rest) where
  count n hn := by
    rw [hinflight] at hn
    rw [inFlight_congr (hφ'.trans hφ.symm)]
    exact hinv.count n hn
  counted h := by
    rw [hstate] at h
    rw [hinflight]
    exact hinv.counted h
  outcome := houtcome
  excluded hquiet h x hx := by
    rw [hstate] at h
    rcases mem_cons.mp hx with rfl | hx
    · exact Phase.risky_of_not_counted hφ'
    · exact hexcluded hquiet h x hx
  facts x hx := by
    rcases mem_cons.mp hx with rfl | hx
    · exact hfact
    · refine (hinv.facts x (mem_cons_of_mem hx)).of_not_round
        (hinv.roles.alone hhost x hx) fun h _ => ?_
      rw [hstate]
      exact h
  roles := hinv.roles.move fun _ => hhost
  writes := ⟨fun write hop => absurd hop (hstore write), hinv.writes⟩

/-- The commit: from a successful insert on the outcome is in force. -/
theorem Inv.commit (hinv : Inv k s history ((job, .out) ::ₘ rest)) (hhost : job.isHost = true)
    (hexec : exec c (.hostInsert .deleteOutcome k flowDeleteCommitted .noexist) s =
      some (resp, s')) :
    Inv k s'
      (⟨thread, job, c, .hostInsert .deleteOutcome k flowDeleteCommitted .noexist, resp, s⟩ ::
        history)
      ((job, if resp.isOk then .committing else .out) ::ₘ rest) := by
  rcases exec_hostInsert hexec with ⟨error, rfl, rfl⟩ | ⟨rfl, rfl, -⟩
  · exact hinv.hostStep hhost rfl rfl (fun write => by simp) hinv.outcome
      (fun hquiet h x hx => hinv.excluded hquiet h x (mem_cons_of_mem hx)) rfl rfl trivial
  · have hstage : stage k (⟨thread, job, c,
        .hostInsert .deleteOutcome k flowDeleteCommitted .noexist, .ok (), s⟩ :: history) =
        .committed := by
      simp [Stage.next]
    refine hinv.hostStep hhost (exec_frame hexec (by rintro ⟨⟩)) (exec_frame hexec (by rintro ⟨⟩))
      (fun write => by simp) (fun _ => Maps.find_put_self _ _ _ _) (fun hquiet => ?_) rfl rfl ?_
    · rw [hstage] at hquiet
      cases hquiet
    · exact fun hopened => by
        rw [hstage] at hopened
        cases hopened

/-- A read of the in-flight count: a zero behind a commit finds no thread that is `risky`. -/
theorem Inv.poll {resp : Except MapError Int} (hinv : Inv k s history ((job, φ) ::ₘ rest))
    (hhost : job.isHost = true) (hexec : exec c (.hostGet .packetInflight k) s = some (resp, s'))
    (hφ : φ.counted = false) (hφ' : φ'.counted = false)
    (hfact : φ'.Fact k s
      (⟨thread, job, c, .hostGet .packetInflight k, resp, s⟩ :: history)) :
    Inv k s' (⟨thread, job, c, .hostGet .packetInflight k, resp, s⟩ :: history)
      ((job, φ') ::ₘ rest) := by
  obtain ⟨rfl, hzero⟩ : s' = s ∧ (readsZero resp = true →
      ∀ n, s.find .packetInflight k = some n → n = 0) := by
    obtain ⟨rfl, ⟨call, rfl⟩ | ⟨n, hn, rfl⟩ | ⟨hn, rfl⟩⟩ := exec_hostGet hexec
    · exact ⟨rfl, fun h => by simp [readsZero] at h⟩
    · refine ⟨rfl, fun h n' hn' => ?_⟩
      rw [hn, Option.some.injEq] at hn'
      rw [← hn']
      simpa [readsZero] using h
    · refine ⟨rfl, fun _ n' hn' => ?_⟩
      rw [hn] at hn'
      cases hn'
  have hstage : stage k (⟨thread, job, c, .hostGet .packetInflight k, resp, s'⟩ :: history) =
      if stage k history = .committed ∧ readsZero resp then .quiet else stage k history := by
    simp [Stage.next]
  refine hinv.hostStep hhost rfl rfl (fun write => by simp) (fun h => ?_) (fun hquiet h x hx => ?_)
    hφ hφ' hfact
  · rw [hstage] at h
    split at h
    · rename_i hcommitted
      exact hinv.outcome (by simp [hcommitted.1])
    · exact hinv.outcome h
  · rw [hstage] at hquiet
    split at hquiet
    · -- The count is zero and counts every thread that could write.
      rename_i hcommitted
      obtain ⟨n, hn⟩ := Option.isSome_iff_exists.mp (hinv.counted h)
      have hn0 : (0 : Int) = inFlight ((job, φ) ::ₘ rest) := by
        rw [← hinv.count n hn, hzero hcommitted.2 n hn]
      have hnone : ¬ x.2.counted = true :=
        Multiset.countP_eq_zero.mp (Int.ofNat_eq_zero.mp hn0.symm) x (mem_cons_of_mem hx)
      exact Phase.risky_of_not_counted (by simpa using hnone)
    · exact hinv.excluded hquiet h x (mem_cons_of_mem hx)

/-- Removing the outcome opens the flow again, for a host that relies on no stage any more. -/
theorem Inv.dropOutcome (hinv : Inv k s history ((job, φ) ::ₘ rest)) (hhost : job.isHost = true)
    (hexec : exec c (.hostRemove .deleteOutcome k) s = some (resp, s')) (hφ : φ.counted = false)
    (hφ' : φ'.counted = false)
    (hfact : φ'.Fact k s' (⟨thread, job, c, .hostRemove .deleteOutcome k, resp, s⟩ :: history)) :
    Inv k s' (⟨thread, job, c, .hostRemove .deleteOutcome k, resp, s⟩ :: history)
      ((job, φ') ::ₘ rest) := by
  have hstage : stage k (⟨thread, job, c, .hostRemove .deleteOutcome k, resp, s⟩ :: history) =
      .opened ∨
      stage k (⟨thread, job, c, .hostRemove .deleteOutcome k, resp, s⟩ :: history) =
        stage k history ∧ s' = s := by
    rcases exec_hostRemove hexec with ⟨error, rfl, rfl⟩ | ⟨rfl, -, -⟩
    · exact .inr ⟨rfl, rfl⟩
    · exact .inl (by simp [Stage.next])
  refine hinv.hostStep hhost (exec_frame hexec (by rintro ⟨⟩)) (exec_frame hexec (by rintro ⟨⟩))
    (fun write => by simp) (fun h => ?_) (fun hquiet h x hx => ?_) hφ hφ' hfact
  · rcases hstage with hopened | ⟨hsame, rfl⟩
    · exact absurd hopened h
    · exact hinv.outcome (hsame ▸ h)
  · rcases hstage with hopened | ⟨hsame, -⟩
    · rw [hopened] at hquiet
      cases hquiet
    · exact hinv.excluded (hsame ▸ hquiet) h x (mem_cons_of_mem hx)

/-- The removal of the record: it is the record the host read, and no packet relies on it. -/
theorem Inv.removeRecord {record : FlowStateValue} {observed : UInt64}
    (hinv : Inv k s history ((job, .held record) ::ₘ rest)) (hhost : job.isHost = true)
    (hexec : exec c (.hostRemove .flowState k) s = some (resp, s'))
    (hobserved : observed ≠ 0 → record.lastUsedNs = observed) :
    Inv k s' (⟨thread, job, c, .hostRemove .flowState k, resp, s⟩ :: history)
      ((job, if resp.isOk then .removed thread observed else .out) ::ₘ rest) := by
  obtain ⟨hquiet, hrecord⟩ : stage k history = .quiet ∧ s.find .flowState k = some record :=
    hinv.facts _ (mem_cons_self _ _)
  rcases exec_hostRemove hexec with ⟨error, rfl, rfl⟩ | ⟨rfl, rfl, -⟩
  · exact hinv.hostStep hhost rfl rfl (fun write => by simp) hinv.outcome
      (fun hquiet h x hx => hinv.excluded hquiet h x (mem_cons_of_mem hx)) rfl rfl trivial
  · have hgone : (s.remove .flowState k).find .flowState k = none := Maps.find_remove_self _ _ _
    have hstage : stage k (⟨thread, job, c, .hostRemove .flowState k, .ok (), s⟩ :: history) =
        .opened := by
      simp [Stage.next]
    exact
      { count := fun n hn => by
          rw [Maps.find_remove_of_ne _ _ (by decide)] at hn
          have hcongr : inFlight ((job, .removed thread observed) ::ₘ rest) =
              inFlight ((job, .held record) ::ₘ rest) := inFlight_congr rfl
          simp only [Except.isOk, Except.toBool, if_true, hcongr]
          exact hinv.count n hn
        counted := fun h => by
          rw [hgone] at h
          cases h
        outcome := fun h => absurd hstage h
        excluded := fun h => by
          rw [hstage] at h
          cases h
        facts := fun x hx => by
          rcases mem_cons.mp hx with rfl | hx
          · exact ⟨hgone, _, List.mem_cons_self, rfl, rfl, record, hrecord, hobserved⟩
          · -- In the quiet stage nobody is admitted.
            refine (hinv.facts x (mem_cons_of_mem hx)).of_not_round
              (hinv.roles.alone hhost x hx) fun h hadmitted => ?_
            have := hinv.excluded hquiet h x (mem_cons_of_mem hx)
            rw [hadmitted] at this
            cases this
        roles := hinv.roles.move fun _ => hhost
        writes := ⟨fun _ hop => (nomatch hop), hinv.writes⟩ }

/-- The removal of the in-flight count behind the record. -/
theorem Inv.removeInflight (hinv : Inv k s history ((job, φ) ::ₘ rest))
    (hexec : exec c (.hostRemove .packetInflight k) s = some (resp, s'))
    (hgone : s.find .flowState k = none) :
    Inv k s' (⟨thread, job, c, .hostRemove .packetInflight k, resp, s⟩ :: history)
      ((job, φ) ::ₘ rest) := by
  have hstage : stage k (⟨thread, job, c, .hostRemove .packetInflight k, resp, s⟩ :: history) =
      stage k history := rfl
  refine
    { count := fun n hn => ?_
      counted := fun h => ?_
      outcome := fun h => ?_
      excluded := fun hquiet h => ?_
      facts := fun x hx => (hinv.facts x hx).of_same (exec_frame hexec (by rintro ⟨⟩)) hstage
      roles := hinv.roles
      writes := ⟨fun _ hop => (nomatch hop), hinv.writes⟩ }
  · rcases exec_hostRemove hexec with ⟨error, -, rfl⟩ | ⟨-, rfl, -⟩
    · exact hinv.count n hn
    · rw [Maps.find_remove_self] at hn
      cases hn
  · rw [exec_frame hexec (by rintro ⟨⟩), hgone] at h
    cases h
  · rw [exec_frame hexec (by rintro ⟨⟩)]
    exact hinv.outcome h
  · rw [exec_frame hexec (by rintro ⟨⟩), hgone] at h
    cases h

end Steps

end ShadowSocketProxy.Deletion
