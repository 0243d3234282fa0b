import ShadowSocketProxy.Interleaving.Outline
import Mathlib.Algebra.BigOperators.Group.Finset.Piecewise

/-! # Programs along an automaton

Several invariants of one pool need the same knowledge of its programs: where a thread stands when it
executes an operation, and where it stands afterwards. An automaton says this once, by a transition
relation on phases that is labelled with the operation and its response. A program follows the
automaton when every operation it issues has a transition for every response (`Program.Follows`).
Whatever the transitions keep then holds in every interleaving of programs that follow the automaton
(`Outline.Kept`). -/

namespace Interleaving

variable {Op : Type} {Resp : Op → Type} {State Choice Job α β γ Phase : Type}

namespace Program

variable (step : Phase → (op : Op) → Resp op → Phase → Prop) {p q : Program Op Resp β} {op : Op}
  {answers : List (Answer Op Resp)} {R : Phase → γ → Prop} {f : β → Program Op Resp γ}
  {allowed : Op → Prop} {next : Phase → Answer Op Resp → Phase} {n : Nat}

/-- `p.Follows step Q φ`: from the phase `φ` the operations of `p` are transitions, whatever they are
answered, and `p` returns only in phases and with values that satisfy `Q`. -/
def Follows (Q : Phase → β → Prop) : Phase → Program Op Resp β → Prop
  | φ, .ret value => Q φ value
  | φ, .call op next => ∀ resp, ∃ φ', step φ op resp φ' ∧ Follows Q φ' (next resp)

variable {step} {Q : Phase → β → Prop} {φ : Phase}

/-- **Sequencing rule.** -/
theorem Follows.bind (hp : Follows step Q φ p)
    (hf : ∀ φ' value, Q φ' value → Follows step R φ' (f value)) : Follows step R φ (p >>= f) := by
  induction p generalizing φ with
  | ret value => exact hf φ value hp
  | call op next ih =>
    intro resp
    obtain ⟨φ', hstep, hnext⟩ := hp resp
    exact ⟨φ', hstep, ih resp hnext⟩

/-- The sequencing rule for a first program that returns in one phase. -/
theorem Follows.seq {ψ : Phase} (hp : Follows step (fun φ' _ => φ' = ψ) φ p)
    (hf : ∀ value, Follows step R ψ (f value)) : Follows step R φ (p >>= f) :=
  hp.bind fun φ' value hφ' => by
    subst hφ'
    exact hf value

/-- A program that follows the automaton may promise less. -/
theorem Follows.mono {R : Phase → β → Prop} (hp : Follows step Q φ p)
    (h : ∀ φ' value, Q φ' value → R φ' value) : Follows step R φ p := by
  have := Follows.bind (R := R) (f := Program.ret) hp h
  rwa [Program.bind_ret] at this

/-- The sequencing rule for fallible programs. -/
theorem Follows.bindE {ε : Type} {Q : Phase → Except ε β → Prop} {R : Phase → Except ε γ → Prop}
    {p : ExceptT ε (Program Op Resp) β} {f : β → ExceptT ε (Program Op Resp) γ}
    (hp : Follows step Q φ p.run)
    (hok : ∀ φ' value, Q φ' (.ok value) → Follows step R φ' (f value).run)
    (herror : ∀ φ' error, Q φ' (.error error) → R φ' (.error error)) :
    Follows step R φ (p >>= f).run := by
  rw [ExceptT.run_bind]
  refine hp.bind fun φ' result hQ => ?_
  cases result with
  | ok value => exact hok φ' value hQ
  | error error => exact herror φ' error hQ

/-- One operation, then the rest. -/
theorem Follows.perform {f : Resp op → Program Op Resp β}
    (h : ∀ resp, ∃ φ', step φ op resp φ' ∧ Follows step Q φ' (f resp)) :
    Follows step Q φ (Program.perform op >>= f) := h

/-- One operation that keeps the phase, then the rest. -/
theorem Follows.keep {f : Resp op → Program Op Resp β} (hop : ∀ resp, step φ op resp φ)
    (hf : ∀ resp, Follows step Q φ (f resp)) : Follows step Q φ (Program.perform op >>= f) :=
  fun resp => ⟨φ, hop resp, hf resp⟩

/-- A program of operations that keep the phase. -/
theorem Follows.of_all (hop : ∀ op, allowed op → ∀ resp, step φ op resp φ) (hp : p.All allowed) :
    Follows step (fun φ' _ => φ' = φ) φ p := by
  induction p with
  | ret value => rfl
  | call op next ih => exact fun resp => ⟨φ, hop op hp.1 resp, ih resp (hp.2 resp)⟩

/-- The automaton of an account of the answers: `next` keeps the account, and `ok` says which operation
may come next. -/
def Accounted (ok : Phase → Op → Prop) (next : Phase → Answer Op Resp → Phase) (φ : Phase) (op : Op)
    (resp : Resp op) (φ' : Phase) : Prop :=
  ok φ op ∧ φ' = next φ ⟨op, resp⟩

/-- After a path the rest of the program follows the automaton from the account of the path, and what
every transition leads to holds of that account. -/
theorem Follows.of_path {I : Phase → Prop}
    (hnext : ∀ φ op resp φ', step φ op resp φ' → φ' = next φ ⟨op, resp⟩ ∧ I φ')
    (h : Path p answers q) (hp : Follows step Q φ p) (hφ : I φ) :
    I (answers.foldl next φ) ∧ Follows step Q (answers.foldl next φ) q := by
  induction h generalizing φ with
  | nil p => exact ⟨hφ, hp⟩
  | cons _ ih =>
    obtain ⟨φ', hstep, hrest⟩ := hp _
    obtain ⟨rfl, hI⟩ := hnext _ _ _ _ hstep
    exact ih hrest hI

/-- An automaton whose phase is a credit: what is paid for along a path is covered by the credit and by
what is earned on the way. -/
theorem Follows.countP_le {step : Nat → (op : Op) → Resp op → Nat → Prop} {Q : Nat → β → Prop}
    {pays earns : Answer Op Resp → Bool}
    (hstep : ∀ n op resp m, step n op resp m →
      (if pays ⟨op, resp⟩ then 1 else 0) + m ≤ n + if earns ⟨op, resp⟩ then 1 else 0)
    (h : Path p answers q) (hp : Follows step Q n p) :
    answers.countP pays ≤ n + answers.countP earns := by
  induction h generalizing n with
  | nil p => simp
  | cons _ ih =>
    obtain ⟨m, hm, hrest⟩ := hp _
    have hle := hstep _ _ _ _ hm
    have := ih hrest
    simp only [List.countP_cons]
    omega

/-- Every transition may be taken to be one of an operation of the program. -/
theorem Follows.and_all (hp : Follows step Q φ p) (hall : p.All allowed) :
    Follows (fun φ op resp φ' => step φ op resp φ' ∧ allowed op) Q φ p := by
  induction p generalizing φ with
  | ret value => exact hp
  | call op next ih =>
    intro resp
    obtain ⟨φ', hstep, hrest⟩ := hp resp
    exact ⟨φ', ⟨hstep, hall.1⟩, ih resp hrest (hall.2 resp)⟩

/-- Every operation on a path is one that may come next. -/
theorem Follows.ok_of_path {ok : Phase → Op → Prop} (h : Path p answers q)
    (hp : Follows (Accounted ok next) Q φ p) {resp : Resp op} (hn : answers[n]? = some ⟨op, resp⟩) :
    ok ((answers.take n).foldl next φ) op := by
  induction h generalizing φ n with
  | nil p => simp at hn
  | cons _ ih =>
    obtain ⟨_, ⟨hop, rfl⟩, hnext⟩ := hp _
    cases n with
    | zero =>
      cases hn
      exact hop
    | succ n => exact ih hnext hn

end Program

/-- What is counted in a history is counted in the answers of the threads. -/
theorem Pool.Reachable.countP_history {P : Pool Op Resp State Choice Job α} {s : State}
    {w : World Op Resp State Choice Job α} (h : P.Reachable (World.start s) w)
    (counts : Program.Answer Op Resp → Bool) :
    w.history.countP (fun e => counts ⟨e.op, e.resp⟩) =
      ∑ i ∈ Finset.range w.threads.length, (w.answers i).countP counts := by
  have hthread : ∀ e ∈ w.history, e.thread < w.threads.length := fun e he => by
    obtain ⟨t, ht, -⟩ := h.job_eq e he
    exact (List.getElem?_eq_some_iff.mp ht).1
  simp only [World.answers, List.countP_reverse, List.countP_map]
  generalize w.threads.length = n at hthread
  generalize w.history = history at hthread
  induction history with
  | nil => simp
  | cons e history ih =>
    have hsplit : ∀ i, ((e :: history).filter fun e => e.thread == i).countP
        (counts ∘ fun e => ⟨e.op, e.resp⟩) = (history.filter fun e => e.thread == i).countP
          (counts ∘ fun e => ⟨e.op, e.resp⟩) +
          if e.thread = i then (if counts ⟨e.op, e.resp⟩ then 1 else 0) else 0 := by
      intro i
      by_cases hi : e.thread = i
      · simp [hi, List.countP_cons]
      · simp [hi]
    rw [List.countP_cons, ih fun e' he' => hthread e' (List.mem_cons_of_mem _ he')]
    simp only [hsplit, Finset.sum_add_distrib, Finset.sum_ite_eq, Finset.mem_range,
      hthread e List.mem_cons_self, if_true]

namespace Outline

variable (O : Outline Op Resp State Choice Job α Phase) (M : Machine Op Resp State Choice)
  (step : Job → Phase → (op : Op) → Resp op → Phase → Prop)

/-- Every transition keeps the invariant. -/
def Kept : Prop :=
  ∀ thread job φ op resp φ' c s s' history rest, step job φ op resp φ' →
    O.inv s history ((job, φ) ::ₘ rest) → M.exec c op s = some (resp, s') →
    O.permitted ⟨thread, job, c, op, resp, s⟩ →
    O.inv s' (⟨thread, job, c, op, resp, s⟩ :: history) ((job, φ') ::ₘ rest)

variable {O M step} {thread : Nat} {job : Job} {φ : Phase}

/-- A program that follows the automaton is safe. -/
theorem Kept.safe (hkept : O.Kept M step) {Q : Phase → β → Prop} {p : Program Op Resp β}
    (hp : p.Follows (step job) Q φ) : O.Safe M thread job Q φ p := by
  induction p generalizing φ with
  | ret value => exact hp
  | call op next ih =>
    intro c resp s s' history rest hinv hexec hperm
    obtain ⟨φ', hstep, hnext⟩ := hp resp
    exact ⟨φ', hkept _ _ _ _ _ _ _ _ _ _ _ hstep hinv hexec hperm, ih resp hnext⟩

/-- **Validity along an automaton.** An outline holds of the runs of a pool when its invariant holds
at the start, is kept by the transitions, and allows a thread to start in its first phase and to leave
in its last ones. -/
theorem Kept.valid (hkept : O.Kept M step) {P : Pool Op Resp State Choice Job α} {s₀ : State}
    (hmachine : P.machine = M) (hstart : O.inv s₀ [] 0) (first : Job → Phase)
    (hfollows : ∀ thread job, (P.code job).Follows (step job) (O.ends thread job) (first job))
    (hspawn : ∀ job s history running (threads : List (Thread Op Resp Job α)),
      O.inv s history running → P.admits job threads = true →
      (∀ x ∈ running, ∃ t ∈ threads, t.job = x.1 ∧ t.finished = false) →
      O.inv s history ((job, first job) ::ₘ running))
    (hretire : ∀ thread job φ value s history rest, O.ends thread job φ value →
      O.inv s history ((job, φ) ::ₘ rest) →
      O.inv s history rest ∧ O.settled thread job value history)
    (hsettled : ∀ thread job value e history, O.settled thread job value history →
      O.settled thread job value (e :: history)) : O.Valid P s₀ where
  start := hstart
  spawn job s history running threads hinv hadmits hrunning :=
    ⟨first job, hspawn job s history running threads hinv hadmits hrunning, fun thread =>
      hmachine ▸ hkept.safe (hfollows thread job)⟩
  retire := hretire
  settled_cons := hsettled

end Outline

end Interleaving
