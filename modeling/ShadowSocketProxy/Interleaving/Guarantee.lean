import ShadowSocketProxy.Interleaving.Interference

/-! # What threads owe each other

A contract fixes, for the threads of a pool, an invariant of the shared state, what a thread has to know
before each of its operations, and how the others may move the state under it. A program meets the
contract when it knows what it has to at every operation, however the others have moved the state
meanwhile (`Contract.meets`). When every job's code does and every operation keeps to what the threads
beside it rely on, the invariant holds in every reachable world, and every executed operation was
executed in a state in which its thread knew what it had to (`Contract.Sound.kept`). What a job leaves
behind for the next of its kind holds whenever none of them is running. -/

namespace Interleaving

variable {Op : Type} {Resp : Op → Type} {State Choice Job α β : Type}

/-- A contract between the threads of a pool. -/
structure Contract (Op : Type) (Resp : Op → Type) (State Choice Job : Type) where
  /-- What holds of the shared state. -/
  inv : State → Prop
  /-- What a thread of a job has to know before an operation. -/
  pre : Job → Op → State → Prop
  /-- How the others may move the state under a thread of a job. -/
  rely : Job → State → State → Prop
  /-- Whether threads of two jobs may run beside each other. -/
  beside : Job → Job → Prop
  /-- The operations the runs under consideration may contain. -/
  permitted : Event Op Resp State Choice Job → Prop
  /-- What holds for a job while no thread runs that may not run beside it. -/
  rest : Job → State → Prop := fun _ _ => True

namespace Contract

variable (C : Contract Op Resp State Choice Job) (M : Machine Op Resp State Choice) {s : State}
  {p : Program Op Resp α}

/-- `C.meets M job p Q s`: from the state `s`, the program `p` of a thread of `job` knows what it has to
before each operation, and returns in states and with values that satisfy `Q`. -/
def meets (job : Job) : Program Op Resp α → (α → State → Prop) → State → Prop
  | .ret value, Q, s => Q value s
  | .call op next, Q, s =>
    ∀ s₁, C.rely job s s₁ → C.inv s₁ → C.pre job op s₁ ∧
      ∀ c resp s₂, M.exec c op s₁ = some (resp, s₂) →
        (∃ thread, C.permitted ⟨thread, job, c, op, resp, s₁⟩) → C.inv s₂ → meets job (next resp) Q s₂

variable {C M} {job : Job}

theorem meets_mono {Q R : α → State → Prop} (h : C.meets M job p Q s)
    (hQR : ∀ value s, Q value s → R value s) : C.meets M job p R s := by
  induction p generalizing s with
  | ret value => exact hQR value s h
  | call op next ih =>
    intro s₁ hrely hinv
    obtain ⟨hpre, hnext⟩ := h s₁ hrely hinv
    exact ⟨hpre, fun c resp s₂ hexec hallowed hinv' => ih resp (hnext c resp s₂ hexec hallowed hinv')⟩

/-- **Sequencing rule.** -/
theorem meets_seq {f : α → Program Op Resp β} {R : α → State → Prop} {Q : β → State → Prop}
    (hp : C.meets M job p R s) (hf : ∀ a s', R a s' → C.meets M job (f a) Q s') :
    C.meets M job (p >>= f) Q s := by
  induction p generalizing s with
  | ret value => exact hf value s hp
  | call op next ih =>
    intro s₁ hrely hinv
    obtain ⟨hpre, hnext⟩ := hp s₁ hrely hinv
    exact ⟨hpre, fun c resp s₂ hexec hallowed hinv' => ih resp (hnext c resp s₂ hexec hallowed hinv')⟩

/-- The sequencing rule for fallible programs. -/
theorem meets_seqE {ε : Type} {p : ExceptT ε (Program Op Resp) α}
    {f : α → ExceptT ε (Program Op Resp) β} {R : Except ε α → State → Prop}
    {Q : Except ε β → State → Prop} (hp : C.meets M job p.run R s)
    (hok : ∀ a s', R (.ok a) s' → C.meets M job (f a).run Q s')
    (herror : ∀ e s', R (.error e) s' → Q (.error e) s') : C.meets M job (p >>= f).run Q s := by
  rw [ExceptT.run_bind]
  refine meets_seq hp fun result s' h => ?_
  cases result with
  | ok a => exact hok a s' h
  | error e => exact herror e s' h

/-- A program whose operations need no knowledge meets the contract; what the others and its own
operations keep, it keeps. -/
theorem meets_of_all {free : Op → Prop} {K : State → Prop}
    (hfree : ∀ op, free op → ∀ s, C.inv s → C.pre job op s)
    (hkeeps : ∀ op, free op → ∀ c resp s s', K s → M.exec c op s = some (resp, s') → K s')
    (hrely : ∀ s s', C.rely job s s' → K s → K s') (hp : p.All free) (hs : K s) :
    C.meets M job p (fun _ s' => K s') s := by
  induction p generalizing s with
  | ret value => exact hs
  | call op next ih =>
    intro s₁ h₁ hinv
    refine ⟨hfree op hp.1 s₁ hinv, fun c resp s₂ hexec _ _ => ih resp (hp.2 resp) ?_⟩
    exact hkeeps op hp.1 c resp s₁ s₂ (hrely s s₁ h₁ hs) hexec

/-- The others may have moved already, if they keep what is to hold in the end. -/
theorem meets_of_rely (htrans : ∀ a b c, C.rely job a b → C.rely job b c → C.rely job a c)
    {Q : α → State → Prop} (hQ : ∀ value s s', C.rely job s s' → Q value s → Q value s')
    {s' : State} (h : C.meets M job p Q s) (hrely : C.rely job s s') : C.meets M job p Q s' := by
  cases p with
  | ret value => exact hQ value s s' hrely h
  | call op next => exact fun s₁ h₁ => h s₁ (htrans _ _ _ hrely h₁)

/-- The jobs of a pool keep a contract. -/
structure Sound (C : Contract Op Resp State Choice Job) (P : Pool Op Resp State Choice Job α) : Prop where
  refl : ∀ job s, C.rely job s s
  trans : ∀ job a b c, C.rely job a b → C.rely job b c → C.rely job a c
  /-- Jobs that are admitted beside each other may run beside each other. -/
  admits : ∀ job threads, P.admits job threads = true → ∀ t ∈ threads, t.finished = false →
    C.beside t.job job ∧ C.beside job t.job
  /-- Every operation keeps the invariant. -/
  keeps : ∀ e s', C.permitted e → C.inv e.before → C.pre e.job e.op e.before →
    P.machine.exec e.choice e.op e.before = some (e.resp, s') → C.inv s'
  /-- Every operation keeps to what the threads beside it rely on. -/
  moves : ∀ job e s', C.beside job e.job → C.permitted e → C.inv e.before →
    C.pre e.job e.op e.before → P.machine.exec e.choice e.op e.before = some (e.resp, s') →
    C.rely job e.before s'
  /-- What holds at rest is kept by the others, -/
  rest_rely : ∀ job s s', C.rely job s s' → C.rest job s → C.rest job s' := by intros; trivial
  /-- and is the same for all jobs that may not run beside each other. -/
  rest_apart : ∀ job job' s, ¬ C.beside job job' → C.rest job' s → C.rest job s := by intros; trivial
  /-- The code of every job meets the contract, from rest to rest. -/
  code : ∀ job s, C.inv s → C.rest job s →
    C.meets P.machine job (P.code job) (fun _ s' => C.rest job s') s

/-- What is known of a world of a pool that keeps a contract. -/
structure Kept (C : Contract Op Resp State Choice Job) (P : Pool Op Resp State Choice Job α)
    (w : World Op Resp State Choice Job α) : Prop where
  inv : C.inv w.shared
  past : ∀ e ∈ w.history, C.inv e.before ∧ C.pre e.job e.op e.before
  threads : ∀ (i : Nat) (t : Thread Op Resp Job α), w.threads[i]? = some t →
    t.finished = false → C.meets P.machine t.job t.program (fun _ s => C.rest t.job s) w.shared
  apart : ∀ (i j : Nat) (t t' : Thread Op Resp Job α), i ≠ j → w.threads[i]? = some t →
    w.threads[j]? = some t' → t.finished = false → t'.finished = false → C.beside t.job t'.job
  rest : ∀ job, (∀ (i : Nat) (t : Thread Op Resp Job α), w.threads[i]? = some t →
    t.finished = false → C.beside job t.job) → C.rest job w.shared

variable {P : Pool Op Resp State Choice Job α} {w : World Op Resp State Choice Job α}

theorem Kept.spawn (hC : C.Sound P) (hw : C.Kept P w) {job : Job}
    (hadmits : P.admits job w.threads = true) :
    C.Kept P { w with threads := w.threads ++ [⟨job, P.code job⟩] } where
  inv := hw.inv
  past := hw.past
  threads i t ht hfinished := by
    rcases Pool.getElem?_append_singleton ht with hold | ⟨-, rfl⟩
    · exact hw.threads i t hold hfinished
    · refine hC.code job w.shared hw.inv (hw.rest job fun j t' ht' hunfinished => ?_)
      exact (hC.admits job w.threads hadmits t' (List.mem_of_getElem? ht') hunfinished).2
  apart i j t t' hij ht ht' hfinished hfinished' := by
    rcases Pool.getElem?_append_singleton ht with hold | ⟨rfl, rfl⟩
    · rcases Pool.getElem?_append_singleton ht' with hold' | ⟨-, rfl⟩
      · exact hw.apart i j t t' hij hold hold' hfinished hfinished'
      · exact (hC.admits job w.threads hadmits t (List.mem_of_getElem? hold) hfinished).1
    · rcases Pool.getElem?_append_singleton ht' with hold' | ⟨rfl, -⟩
      · exact (hC.admits job w.threads hadmits t' (List.mem_of_getElem? hold') hfinished').2
      · exact absurd rfl hij
  rest job' hbeside := by
    refine hw.rest job' fun i t ht => hbeside i t ?_
    have hi : i < w.threads.length := (List.getElem?_eq_some_iff.mp ht).1
    rw [List.getElem?_append_left hi]
    exact ht

theorem Kept.step (hC : C.Sound P) (hw : C.Kept P w) {i : Nat} {job : Job} {c : Choice} {op : Op}
    {next : Resp op → Program Op Resp α} {resp : Resp op}
    (hthread : w.threads[i]? = some ⟨job, .call op next⟩)
    (hexec : P.machine.exec c op w.shared = some (resp, s))
    (hpermitted : C.permitted ⟨i, job, c, op, resp, w.shared⟩) :
    C.Kept P ⟨s, w.threads.set i ⟨job, next resp⟩, ⟨i, job, c, op, resp, w.shared⟩ :: w.history⟩ := by
  have hi : i < w.threads.length := (List.getElem?_eq_some_iff.mp hthread).1
  obtain ⟨hpre, hnext⟩ := hw.threads i _ hthread rfl w.shared (hC.refl job _) hw.inv
  have hinv := hC.keeps ⟨i, job, c, op, resp, w.shared⟩ s hpermitted hw.inv hpre hexec
  -- a thread after the step is the one that stepped, or one of before
  have hthreads : ∀ {j : Nat} {t : Thread Op Resp Job α},
      (w.threads.set i ⟨job, next resp⟩)[j]? = some t →
        j ≠ i ∧ w.threads[j]? = some t ∨ j = i ∧ t = ⟨job, next resp⟩ := by
    intro j t ht
    by_cases hij : j = i
    · subst hij
      rw [List.getElem?_set_self hi] at ht
      exact .inr ⟨rfl, (Option.some.inj ht).symm⟩
    · rw [List.getElem?_set_ne (Ne.symm hij)] at ht
      exact .inl ⟨hij, ht⟩
  refine ⟨hinv, fun e he => ?_, fun j t ht hfinished => ?_, fun j k t t' hjk ht ht' hf hf' => ?_,
    fun job' hbeside => ?_⟩
  · rcases List.mem_cons.mp he with rfl | he
    · exact ⟨hw.inv, hpre⟩
    · exact hw.past e he
  · rcases hthreads ht with ⟨hij, hold⟩ | ⟨rfl, rfl⟩
    · have hbeside := hw.apart j i t _ hij hold hthread hfinished rfl
      refine meets_of_rely (hC.trans t.job) (fun _ => hC.rest_rely t.job)
        (hw.threads j t hold hfinished) ?_
      exact hC.moves t.job ⟨i, job, c, op, resp, w.shared⟩ s hbeside hpermitted hw.inv hpre hexec
    · exact hnext c resp s hexec ⟨_, hpermitted⟩ hinv
  · rcases hthreads ht with ⟨hji, hold⟩ | ⟨rfl, rfl⟩
    · rcases hthreads ht' with ⟨-, hold'⟩ | ⟨rfl, rfl⟩
      · exact hw.apart j k t t' hjk hold hold' hf hf'
      · exact hw.apart j k t ⟨job, .call op next⟩ hjk hold hthread hf rfl
    · rcases hthreads ht' with ⟨-, hold'⟩ | ⟨rfl, -⟩
      · exact hw.apart j k ⟨job, .call op next⟩ t' hjk hthread hold' rfl hf'
      · exact absurd rfl hjk
  · by_cases hjob : C.beside job' job
    · -- a step beside it: what held at rest is kept
      have hrest := hw.rest job' fun j t ht hfinished => by
        by_cases hij : j = i
        · rw [hij, hthread, Option.some.injEq] at ht
          rw [← ht]
          exact hjob
        · refine hbeside j t ?_ hfinished
          rw [List.getElem?_set_ne (Ne.symm hij)]
          exact ht
      refine hC.rest_rely job' w.shared s ?_ hrest
      exact hC.moves job' ⟨i, job, c, op, resp, w.shared⟩ s hjob hpermitted hw.inv hpre hexec
    · -- a step of one that may not run beside it: the last one
      have hlast : Thread.finished (⟨job, next resp⟩ : Thread Op Resp Job α) = true := by
        by_contra hunfinished
        exact hjob (hbeside i _ (List.getElem?_set_self hi) (Bool.not_eq_true _ ▸ hunfinished))
      obtain ⟨value, hvalue⟩ := Option.isSome_iff_exists.mp hlast
      have hret : next resp = .ret value := Program.value?_eq_some.mp hvalue
      have hend := hnext c resp s hexec ⟨i, hpermitted⟩ hinv
      rw [hret] at hend
      exact hC.rest_apart job' job s hjob hend

/-- **A contract that the jobs keep holds in every reachable world.** -/
theorem Sound.kept (hC : C.Sound P) (hs : C.inv s) (hrest : ∀ job, C.rest job s)
    (h : P.Reachable (World.start s) w) (hpermitted : ∀ e ∈ w.history, C.permitted e) :
    C.Kept P w := by
  refine Pool.Reachable.induction (I := fun w => (∀ e ∈ w.history, C.permitted e) → C.Kept P w) h
    ?_ ?_ hpermitted
  · exact fun _ => ⟨hs, by simp [World.start], by simp [World.start], by simp [World.start],
      fun job _ => hrest job⟩
  · intro w a w' ih hact hpermitted
    cases a with
    | spawn job =>
      obtain ⟨hadmits, rfl⟩ := Pool.act_spawn_iff.mp hact
      exact (ih hpermitted).spawn hC hadmits
    | step i c =>
      obtain ⟨job, op, next, resp, s, hthread, hexec, rfl⟩ := Pool.act_step_iff.mp hact
      exact (ih fun e he => hpermitted e (List.mem_cons_of_mem _ he)).step hC hthread hexec
        (hpermitted _ List.mem_cons_self)

end Contract

end Interleaving
