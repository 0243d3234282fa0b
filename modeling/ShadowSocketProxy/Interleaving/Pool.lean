import ShadowSocketProxy.Interleaving.Program

/-! # Interleaved programs

A pool runs any number of programs over one shared state. At each step the scheduler either starts a
job or lets one thread execute its next operation, under any environment choice. A world keeps the
history of all executed operations with the state each was executed in, so a property can speak about
the order of operations and not only about the last state. -/

namespace Interleaving

variable {Op : Type} {Resp : Op → Type} {State Choice Job α : Type}

/-- A thread: the job it was started for and what is left of its program. -/
structure Thread (Op : Type) (Resp : Op → Type) (Job α : Type) where
  /-- The job the thread was started for. -/
  job : Job
  /-- The rest of the program. -/
  program : Program Op Resp α

/-- One executed operation. -/
structure Event (Op : Type) (Resp : Op → Type) (State Choice Job : Type) where
  /-- The number of the executing thread. -/
  thread : Nat
  /-- The job of the executing thread. -/
  job : Job
  /-- The environment choice. -/
  choice : Choice
  /-- The operation. -/
  op : Op
  /-- Its response. -/
  resp : Resp op
  /-- The shared state the operation was executed in. -/
  before : State

/-- A shared state with its threads; `history` holds the executed operations, the latest first. -/
structure World (Op : Type) (Resp : Op → Type) (State Choice Job α : Type) where
  /-- The shared state. -/
  shared : State
  /-- All threads ever started, in the order of their start. -/
  threads : List (Thread Op Resp Job α)
  /-- The executed operations, the latest first. -/
  history : List (Event Op Resp State Choice Job)

/-- What a scheduler does next. -/
inductive Action (Job Choice : Type) where
  /-- Start a job. -/
  | spawn (job : Job)
  /-- Let a thread execute its next operation. -/
  | step (thread : Nat) (choice : Choice)

/-- The programs of a pool: the machine they run on, the code of each job, and which jobs may be
started beside the given threads. -/
structure Pool (Op : Type) (Resp : Op → Type) (State Choice Job α : Type) where
  /-- The machine that executes the operations. -/
  machine : Machine Op Resp State Choice
  /-- The program of a job. -/
  code : Job → Program Op Resp α
  /-- Whether a job may be started beside the given threads. -/
  admits : Job → List (Thread Op Resp Job α) → Bool

namespace Thread

/-- Whether the thread has returned. -/
def finished (t : Thread Op Resp Job α) : Bool := t.program.value?.isSome

end Thread

namespace World

/-- A world in which nothing has been started. -/
def start (s : State) : World Op Resp State Choice Job α := ⟨s, [], []⟩

/-- Whether every thread has returned. -/
def quiet (w : World Op Resp State Choice Job α) : Bool := w.threads.all Thread.finished

/-- The answered operations of one thread, in the order of their execution. -/
def answers (w : World Op Resp State Choice Job α) (thread : Nat) :
    List (Program.Answer Op Resp) :=
  ((w.history.filter fun e => e.thread == thread).map fun e => ⟨e.op, e.resp⟩).reverse

/-- The job and the value of a thread that has returned. -/
def returned (w : World Op Resp State Choice Job α) (thread : Nat) : Option (Job × α) :=
  match w.threads[thread]? with
  | some ⟨job, .ret value⟩ => some (job, value)
  | _ => none

theorem answers_eq (w : World Op Resp State Choice Job α) (thread : Nat) :
    w.answers thread =
      (w.history.reverse.filter fun e => e.thread == thread).map fun e => ⟨e.op, e.resp⟩ := by
  rw [answers, ← List.map_reverse, List.filter_reverse]

theorem mem_answers_iff {w : World Op Resp State Choice Job α} {thread : Nat}
    {a : Program.Answer Op Resp} :
    a ∈ w.answers thread ↔ ∃ e ∈ w.history, e.thread = thread ∧ ⟨e.op, e.resp⟩ = a := by
  simp [answers, and_assoc]

theorem returned_eq_some_iff {w : World Op Resp State Choice Job α} {thread : Nat} {job : Job}
    {value : α} :
    w.returned thread = some (job, value) ↔ w.threads[thread]? = some ⟨job, .ret value⟩ := by
  rw [returned]
  split
  · rename_i h
    rw [h]
    simp
  · rename_i h
    exact ⟨fun h' => (nomatch h'), fun h' => absurd h' (h job value)⟩

end World

namespace Pool

variable (P : Pool Op Resp State Choice Job α) {w w' w₀ : World Op Resp State Choice Job α}
  {s : State}

/-- Execute one action; `none` when it is not possible. -/
def act (w : World Op Resp State Choice Job α) :
    Action Job Choice → Option (World Op Resp State Choice Job α)
  | .spawn job =>
    if P.admits job w.threads then
      some { w with threads := w.threads ++ [⟨job, P.code job⟩] }
    else none
  | .step i c =>
    match w.threads[i]? with
    | none => none
    | some ⟨_, .ret _⟩ => none
    | some ⟨job, .call op next⟩ =>
      match P.machine.exec c op w.shared with
      | none => none
      | some (resp, s) =>
        some ⟨s, w.threads.set i ⟨job, next resp⟩, ⟨i, job, c, op, resp, w.shared⟩ :: w.history⟩

/-- Execute a list of actions. -/
def run (w : World Op Resp State Choice Job α) :
    List (Action Job Choice) → Option (World Op Resp State Choice Job α)
  | [] => some w
  | a :: actions =>
    match P.act w a with
    | none => none
    | some w' => run w' actions

/-- The worlds some schedule leads to. -/
def Reachable (w₀ w : World Op Resp State Choice Job α) : Prop :=
  ∃ actions, P.run w₀ actions = some w

variable {P}

/-- Starting a job appends its thread. -/
theorem act_spawn_iff {job : Job} :
    P.act w (.spawn job) = some w' ↔
      P.admits job w.threads = true ∧
        w' = { w with threads := w.threads ++ [⟨job, P.code job⟩] } := by
  simp only [act]
  split
  · rename_i h
    simp [h, eq_comm]
  · rename_i h
    simp [h]

/-- A step executes the next operation of one thread. -/
theorem act_step_iff {i : Nat} {c : Choice} :
    P.act w (.step i c) = some w' ↔
      ∃ job op next resp s, w.threads[i]? = some ⟨job, .call op next⟩ ∧
        P.machine.exec c op w.shared = some (resp, s) ∧
        w' = ⟨s, w.threads.set i ⟨job, next resp⟩, ⟨i, job, c, op, resp, w.shared⟩ :: w.history⟩ := by
  simp only [act]
  cases hthread : w.threads[i]? with
  | none => simp
  | some t =>
    obtain ⟨job, program⟩ := t
    cases program with
    | ret value => simp
    | call op next =>
      cases hexec : P.machine.exec c op w.shared with
      | none =>
        constructor
        · intro h
          simp [hexec] at h
        · rintro ⟨job', op', next', resp', s', heq, hexec', rfl⟩
          cases heq
          simp [hexec] at hexec'
      | some answer =>
        obtain ⟨resp, s⟩ := answer
        constructor
        · intro h
          exact ⟨job, op, next, resp, s, rfl, hexec, by simpa [hexec] using h.symm⟩
        · rintro ⟨job', op', next', resp', s', heq, hexec', rfl⟩
          cases heq
          rw [hexec] at hexec'
          cases hexec'
          simp [hexec]

/-- **Invariant rule.** What holds at the start and is kept by every action holds in every reachable
world. -/
theorem Reachable.induction {I : World Op Resp State Choice Job α → Prop} (h : P.Reachable w₀ w)
    (start : I w₀) (step : ∀ w a w', I w → P.act w a = some w' → I w') : I w := by
  obtain ⟨actions, hrun⟩ := h
  induction actions generalizing w₀ with
  | nil =>
    simp only [run, Option.some.injEq] at hrun
    exact hrun ▸ start
  | cons a actions ih =>
    simp only [run] at hrun
    cases hact : P.act w₀ a with
    | none => simp [hact] at hrun
    | some w₁ =>
      simp only [hact] at hrun
      exact ih (step w₀ a w₁ start hact) hrun

/-- A schedule whose last world passes a test reaches a world that passes it. -/
theorem exists_reachable_of_run {actions : List (Action Job Choice)}
    {check : World Op Resp State Choice Job α → Bool} (h : (P.run w₀ actions).any check = true) :
    ∃ w, P.Reachable w₀ w ∧ check w = true := by
  obtain ⟨w, hrun, hcheck⟩ := (Option.any_eq_true _ _).mp h
  exact ⟨w, ⟨actions, hrun⟩, hcheck⟩

/-- A world is reachable from itself. -/
theorem Reachable.refl (w : World Op Resp State Choice Job α) : P.Reachable w w := ⟨[], rfl⟩

/-- A further action leads to a reachable world. -/
theorem Reachable.step (h : P.Reachable w₀ w) {a : Action Job Choice} (hact : P.act w a = some w') :
    P.Reachable w₀ w' := by
  obtain ⟨actions, hrun⟩ := h
  refine ⟨actions ++ [a], ?_⟩
  induction actions generalizing w₀ with
  | nil =>
    obtain rfl : w₀ = w := Option.some.inj hrun
    simp only [List.nil_append, run, hact]
  | cons b actions ih =>
    simp only [List.cons_append, run] at hrun ⊢
    cases hb : P.act w₀ b with
    | none => simp [hb] at hrun
    | some w₁ =>
      simp only [hb] at hrun
      exact ih hrun

/-- Every event of a reached history was executed as it says. -/
theorem Reachable.executed (h : P.Reachable (World.start s) w) :
    ∀ e ∈ w.history, ∃ s', P.machine.exec e.choice e.op e.before = some (e.resp, s') := by
  refine Reachable.induction (I := fun w => ∀ e ∈ w.history,
    ∃ s', P.machine.exec e.choice e.op e.before = some (e.resp, s')) h (by simp [World.start]) ?_
  intro w a w' ih hact
  cases a with
  | spawn job =>
    obtain ⟨-, rfl⟩ := act_spawn_iff.mp hact
    exact ih
  | step i c =>
    obtain ⟨job, op, next, resp, s', -, hexec, rfl⟩ := act_step_iff.mp hact
    intro e he
    rcases List.mem_cons.mp he with rfl | he
    · exact ⟨s', hexec⟩
    · exact ih e he

/-- Before an event of a reached history, a world was reached with the events before it. -/
theorem Reachable.before (h : P.Reachable (World.start s) w)
    {later earlier : List (Event Op Resp State Choice Job)} {e : Event Op Resp State Choice Job}
    (hsplit : w.history = later ++ e :: earlier) :
    ∃ w', P.Reachable (World.start s) w' ∧ w'.history = earlier ∧ w'.shared = e.before := by
  refine (Reachable.induction (I := fun w => P.Reachable (World.start s) w ∧ ∀ later,
    w.history = later ++ e :: earlier → ∃ w', P.Reachable (World.start s) w' ∧ w'.history = earlier ∧
      w'.shared = e.before) h ⟨.refl _, fun later hnil => ?_⟩ ?_).2 later hsplit
  · cases later <;> cases hnil
  · rintro w a w' ⟨hreach, ih⟩ hact
    refine ⟨hreach.step hact, fun later hsplit => ?_⟩
    cases a with
    | spawn job =>
      obtain ⟨-, rfl⟩ := act_spawn_iff.mp hact
      exact ih later hsplit
    | step i c =>
      obtain ⟨job, op, next, resp, s', -, hexec, rfl⟩ := act_step_iff.mp hact
      cases later with
      | nil =>
        obtain ⟨rfl, rfl⟩ := List.cons.inj hsplit
        exact ⟨w, hreach, rfl, rfl⟩
      | cons last later => exact ih later (List.cons.inj hsplit).2

/-- What an event brings about and later events keep holds in the end. -/
theorem Reachable.after {K : State → Prop} (h : P.Reachable (World.start s) w)
    {e : Event Op Resp State Choice Job} (he : e ∈ w.history)
    (hbrings : ∀ s', P.machine.exec e.choice e.op e.before = some (e.resp, s') → K s')
    (hkeeps : ∀ f ∈ w.history, ∀ s', P.machine.exec f.choice f.op f.before = some (f.resp, s') →
      K f.before → K s') : K w.shared := by
  refine Reachable.induction (I := fun w => e ∈ w.history → (∀ f ∈ w.history, ∀ s',
    P.machine.exec f.choice f.op f.before = some (f.resp, s') → K f.before → K s') → K w.shared) h
    (fun hnil _ => by cases hnil) ?_ he hkeeps
  intro w a w' ih hact he hkeeps
  cases a with
  | spawn job =>
    obtain ⟨-, rfl⟩ := act_spawn_iff.mp hact
    exact ih he hkeeps
  | step i c =>
    obtain ⟨job, op, next, resp, s', -, hexec, rfl⟩ := act_step_iff.mp hact
    rcases List.mem_cons.mp he with rfl | he
    · exact hbrings s' hexec
    · refine hkeeps _ List.mem_cons_self s' hexec (ih he fun f hf => ?_)
      exact hkeeps f (List.mem_cons_of_mem _ hf)

/-- Every event of a reached history is one of a thread of its job. -/
theorem Reachable.job_eq (h : P.Reachable (World.start s) w) :
    ∀ e ∈ w.history, ∃ t, w.threads[e.thread]? = some t ∧ t.job = e.job := by
  refine Reachable.induction (I := fun w => ∀ e ∈ w.history,
    ∃ t, w.threads[e.thread]? = some t ∧ t.job = e.job) h (by simp [World.start]) ?_
  intro w a w' ih hact e he
  cases a with
  | spawn job =>
    obtain ⟨-, rfl⟩ := act_spawn_iff.mp hact
    obtain ⟨t, ht, hjob⟩ := ih e he
    have hlt := (List.getElem?_eq_some_iff.mp ht).1
    exact ⟨t, by rw [List.getElem?_append_left hlt]; exact ht, hjob⟩
  | step i c =>
    obtain ⟨job, op, next, resp, s', hthread, -, rfl⟩ := act_step_iff.mp hact
    have hi := (List.getElem?_eq_some_iff.mp hthread).1
    rcases List.mem_cons.mp he with rfl | he
    · exact ⟨⟨job, next resp⟩, List.getElem?_set_self hi, rfl⟩
    · obtain ⟨t, ht, hjob⟩ := ih e he
      by_cases hsame : e.thread = i
      · subst hsame
        rw [hthread, Option.some.injEq] at ht
        subst ht
        exact ⟨⟨job, next resp⟩, List.getElem?_set_self hi, hjob⟩
      · exact ⟨t, by rw [List.getElem?_set_ne (Ne.symm hsame)]; exact ht, hjob⟩

/-- What no operation changes is the same throughout. -/
theorem Reachable.unchanged {β : Type} {f : State → β} (h : P.Reachable (World.start s) w)
    (hf : ∀ c op s resp s', P.machine.exec c op s = some (resp, s') → f s' = f s) :
    f w.shared = f s ∧ ∀ e ∈ w.history, f e.before = f s := by
  refine Reachable.induction (I := fun w => f w.shared = f s ∧ ∀ e ∈ w.history, f e.before = f s) h
    ⟨rfl, by simp [World.start]⟩ ?_
  rintro w a w' ⟨hshared, hbefore⟩ hact
  cases a with
  | spawn job =>
    obtain ⟨-, rfl⟩ := act_spawn_iff.mp hact
    exact ⟨hshared, hbefore⟩
  | step i c =>
    obtain ⟨job, op, next, resp, s', -, hexec, rfl⟩ := act_step_iff.mp hact
    refine ⟨(hf _ _ _ _ _ hexec).trans hshared, fun e he => ?_⟩
    rcases List.mem_cons.mp he with rfl | he
    · exact hshared
    · exact hbefore e he

/-- What every operation that a job may issue keeps holds throughout. -/
theorem Reachable.keeps {I : State → Prop} {allowed : Op → Prop}
    (h : P.Reachable (World.start s) w) (hcode : ∀ job, (P.code job).All allowed) (hs : I s)
    (hstep : ∀ c op s resp s', allowed op → I s → P.machine.exec c op s = some (resp, s') → I s') :
    I w.shared := by
  -- What is left of a thread's program issues no more than the code of its job did.
  have key : I w.shared ∧ ∀ t ∈ w.threads, t.program.All allowed := by
    refine Reachable.induction (I := fun w => I w.shared ∧ ∀ t ∈ w.threads, t.program.All allowed) h
      ⟨hs, by simp [World.start]⟩ ?_
    rintro w a w' ⟨hshared, hthreads⟩ hact
    cases a with
    | spawn job =>
      obtain ⟨-, rfl⟩ := act_spawn_iff.mp hact
      refine ⟨hshared, fun t ht => ?_⟩
      rcases List.mem_append.mp ht with ht | ht
      · exact hthreads t ht
      · obtain rfl := List.mem_singleton.mp ht
        exact hcode job
    | step i c =>
      obtain ⟨job, op, next, resp, s', hthread, hexec, rfl⟩ := act_step_iff.mp hact
      have hcall := hthreads _ (List.mem_of_getElem? hthread)
      refine ⟨hstep c op w.shared resp s' hcall.1 hshared hexec, fun t ht => ?_⟩
      rcases List.mem_or_eq_of_mem_set ht with ht | rfl
      · exact hthreads t ht
      · exact hcall.2 resp
  exact key.1

/-- **A thread walks down its program.** In a world reached from a start, what is left of a thread's
program is where the thread's own answered operations lead from the code of its job. -/
theorem Reachable.path (h : P.Reachable (World.start s) w) {i : Nat} {t : Thread Op Resp Job α}
    (ht : w.threads[i]? = some t) : Program.Path (P.code t.job) (w.answers i) t.program := by
  -- Threads that are not started yet have no answers: without this the spawn case fails.
  have key : (∀ e ∈ w.history, e.thread < w.threads.length) ∧
      ∀ i t, w.threads[i]? = some t → Program.Path (P.code t.job) (w.answers i) t.program := by
    refine Reachable.induction (I := fun w => (∀ e ∈ w.history, e.thread < w.threads.length) ∧
      ∀ i t, w.threads[i]? = some t → Program.Path (P.code t.job) (w.answers i) t.program) h
      ⟨by simp [World.start], by simp [World.start]⟩ ?_
    rintro w a w' ⟨hold, hpath⟩ hact
    cases a with
    | spawn job =>
      obtain ⟨-, rfl⟩ := act_spawn_iff.mp hact
      refine ⟨fun e he => ?_, fun i t ht => ?_⟩
      · have := hold e he
        simp only [List.length_append, List.length_cons, List.length_nil]
        omega
      · rw [List.getElem?_append] at ht
        split at ht
        · exact hpath i t ht
        · rename_i hlen
          obtain ⟨hi, rfl⟩ : i = w.threads.length ∧ t = ⟨job, P.code job⟩ := by
            rw [List.getElem?_singleton] at ht
            split at ht
            · exact ⟨by omega, by simpa using ht.symm⟩
            · simp at ht
          have hnone : w.history.filter (fun e => e.thread == i) = [] := by
            rw [List.filter_eq_nil_iff]
            intro e he
            have := hold e he
            simp only [beq_iff_eq]
            omega
          simp only [World.answers, hnone, List.map_nil, List.reverse_nil]
          exact .nil _
    | step j c =>
      obtain ⟨job, op, next, resp, s', hthread, -, rfl⟩ := act_step_iff.mp hact
      have hj : j < w.threads.length := (List.getElem?_eq_some_iff.mp hthread).1
      refine ⟨fun e he => ?_, fun i t ht => ?_⟩
      · simp only [List.length_set]
        rcases List.mem_cons.mp he with rfl | he
        · exact hj
        · exact hold e he
      · by_cases hij : i = j
        · subst hij
          rw [List.getElem?_set_self hj, Option.some.injEq] at ht
          subst ht
          simp only [World.answers, List.filter_cons, beq_self_eq_true, if_true, List.map_cons,
            List.reverse_cons]
          exact (hpath i _ hthread).snoc resp
        · rw [List.getElem?_set_ne (Ne.symm hij)] at ht
          have hne : (j == i) = false := by simpa using Ne.symm hij
          simp only [World.answers, List.filter_cons, hne, Bool.false_eq_true, if_false]
          exact hpath i t ht
  exact key.2 i t ht

end Pool

end Interleaving
