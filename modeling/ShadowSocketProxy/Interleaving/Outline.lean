import ShadowSocketProxy.Interleaving.Pool
import Mathlib.Data.List.Perm.Basic
import Mathlib.Data.List.ReduceOption

/-! # Proof outlines for interleaved programs

An outline gives every running thread of a pool a *phase* and states one invariant over the shared
state, the history and the phases of all running threads. A program is safe from a phase when each of
its operations, executed in any state the invariant allows, moves the thread to a phase that restores
the invariant. Safety is checked thread by thread along the text of the program (`Outline.Safe`, with
the sequencing rule `Outline.Safe.bind`), and then holds for every interleaving of any number of
threads (`Outline.Valid.tracks`). -/

namespace Interleaving

variable {Op : Type} {Resp : Op → Type} {State Choice Job α β γ Phase : Type}

/-- An outline for the threads of a pool. -/
structure Outline (Op : Type) (Resp : Op → Type) (State Choice Job α Phase : Type) where
  /-- The invariant over the shared state, the history, and the jobs and phases of all running
  threads. -/
  inv : State → List (Event Op Resp State Choice Job) → Multiset (Job × Phase) → Prop
  /-- The operations the runs under consideration may contain. -/
  permitted : Event Op Resp State Choice Job → Prop
  /-- The phases in which a thread of a job may return a value. -/
  ends : Nat → Job → Phase → α → Prop
  /-- What stays known of a thread that has returned. -/
  settled : Nat → Job → α → List (Event Op Resp State Choice Job) → Prop

namespace Outline

variable (O : Outline Op Resp State Choice Job α Phase) (M : Machine Op Resp State Choice)
  {P : Pool Op Resp State Choice Job α} {s₀ : State} {Q : Phase → β → Prop} {i : Nat}
  {phases : List (Option (Job × Phase))} {w : World Op Resp State Choice Job α}
  {p : Program Op Resp β} {history : List (Event Op Resp State Choice Job)}
  {t : Thread Op Resp Job α} {op : Op} {f : Resp op → Program Op Resp β}
  {threads : List (Thread Op Resp Job α)} {x : Option (Job × Phase)}

/-- `O.Safe M thread job Q φ p`: executed by a thread of `job` from the phase `φ`, the program `p`
keeps the invariant at each operation and returns only in phases and with values that satisfy `Q`. -/
def Safe (thread : Nat) (job : Job) (Q : Phase → β → Prop) : Phase → Program Op Resp β → Prop
  | φ, .ret value => Q φ value
  | φ, .call op next =>
    ∀ c resp s s' history rest,
      O.inv s history ((job, φ) ::ₘ rest) → M.exec c op s = some (resp, s') →
      O.permitted ⟨thread, job, c, op, resp, s⟩ →
      ∃ φ', O.inv s' (⟨thread, job, c, op, resp, s⟩ :: history) ((job, φ') ::ₘ rest) ∧
        Safe thread job Q φ' (next resp)

variable {O M} {thread : Nat} {job : Job}

@[simp] theorem safe_ret {φ : Phase} {value : β} :
    O.Safe M thread job Q φ (.ret value) ↔ Q φ value := Iff.rfl

/-- **Sequencing rule.** -/
theorem Safe.bind {R : Phase → γ → Prop} {φ : Phase} {f : β → Program Op Resp γ}
    (hp : O.Safe M thread job Q φ p)
    (hf : ∀ φ' value, Q φ' value → O.Safe M thread job R φ' (f value)) :
    O.Safe M thread job R φ (p >>= f) := by
  induction p generalizing φ with
  | ret value => exact hf φ value hp
  | call op next ih =>
    intro c resp s s' history rest hinv hexec hperm
    obtain ⟨φ', hinv', hsafe⟩ := hp c resp s s' history rest hinv hexec hperm
    exact ⟨φ', hinv', ih resp hsafe⟩

/-- A safe program may promise less. -/
theorem Safe.mono {R : Phase → β → Prop} {φ : Phase} (hp : O.Safe M thread job Q φ p)
    (h : ∀ φ' value, Q φ' value → R φ' value) : O.Safe M thread job R φ p := by
  have := Safe.bind (R := R) (f := Program.ret) hp h
  rwa [Program.bind_ret] at this

/-- The sequencing rule for fallible programs. -/
theorem Safe.bindE {ε : Type} {Q : Phase → Except ε β → Prop} {R : Phase → Except ε γ → Prop}
    {φ : Phase} {p : ExceptT ε (Program Op Resp) β} {f : β → ExceptT ε (Program Op Resp) γ}
    (hp : O.Safe M thread job Q φ p.run)
    (hok : ∀ φ' value, Q φ' (.ok value) → O.Safe M thread job R φ' (f value).run)
    (herror : ∀ φ' error, Q φ' (.error error) → R φ' (.error error)) :
    O.Safe M thread job R φ (p >>= f).run := by
  rw [ExceptT.run_bind]
  refine hp.bind fun φ' result hQ => ?_
  cases result with
  | ok value => exact hok φ' value hQ
  | error error => exact herror φ' error hQ

/-- One operation, then the rest. -/
theorem Safe.perform {φ : Phase}
    (h : ∀ c resp s s' history rest,
      O.inv s history ((job, φ) ::ₘ rest) → M.exec c op s = some (resp, s') →
      O.permitted ⟨thread, job, c, op, resp, s⟩ →
      ∃ φ', O.inv s' (⟨thread, job, c, op, resp, s⟩ :: history) ((job, φ') ::ₘ rest) ∧
        O.Safe M thread job Q φ' (f resp)) : O.Safe M thread job Q φ (Program.perform op >>= f) := h

/-- `op` keeps the invariant without moving the thread out of its phase. -/
def Ignores (O : Outline Op Resp State Choice Job α Phase) (M : Machine Op Resp State Choice)
    (thread : Nat) (job : Job) (φ : Phase) (op : Op) : Prop :=
  ∀ c resp s s' history rest,
    O.inv s history ((job, φ) ::ₘ rest) → M.exec c op s = some (resp, s') →
    O.permitted ⟨thread, job, c, op, resp, s⟩ →
    O.inv s' (⟨thread, job, c, op, resp, s⟩ :: history) ((job, φ) ::ₘ rest)

/-- One operation that does not matter, then the rest. -/
theorem Safe.ignore {φ : Phase} (hop : O.Ignores M thread job φ op)
    (hf : ∀ resp, O.Safe M thread job Q φ (f resp)) :
    O.Safe M thread job Q φ (Program.perform op >>= f) :=
  fun c resp s s' history rest hinv hexec hperm =>
    ⟨φ, hop c resp s s' history rest hinv hexec hperm, hf resp⟩

/-- A program of operations that do not matter stays in its phase. -/
theorem Safe.of_all {allowed : Op → Prop} {φ : Phase}
    (hop : ∀ op, allowed op → O.Ignores M thread job φ op) (hp : p.All allowed) :
    O.Safe M thread job (fun φ' _ => φ' = φ) φ p := by
  induction p with
  | ret value => rfl
  | call op next ih =>
    exact Safe.ignore (f := next) (hop op hp.1) fun resp => ih resp (hp.2 resp)

/-- What an outline has to satisfy to hold of the runs of a pool from `s₀`. -/
structure Valid (O : Outline Op Resp State Choice Job α Phase)
    (P : Pool Op Resp State Choice Job α) (s₀ : State) : Prop where
  /-- The invariant holds at the start. -/
  start : O.inv s₀ [] 0
  /-- A job that may be started has a phase that keeps the invariant and from which its code is
  safe; the running threads are among the threads it is started beside. -/
  spawn : ∀ job s history running (threads : List (Thread Op Resp Job α)),
    O.inv s history running → P.admits job threads = true →
    (∀ x ∈ running, ∃ t ∈ threads, t.job = x.1 ∧ t.finished = false) →
    ∃ φ, O.inv s history ((job, φ) ::ₘ running) ∧
      ∀ thread, O.Safe P.machine thread job (O.ends thread job) φ (P.code job)
  /-- A thread may return where it ends. -/
  retire : ∀ thread job φ value s history rest, O.ends thread job φ value →
    O.inv s history ((job, φ) ::ₘ rest) →
    O.inv s history rest ∧ O.settled thread job value history
  /-- What is known of a returned thread stays known. -/
  settled_cons : ∀ thread job value e history, O.settled thread job value history →
    O.settled thread job value (e :: history)

/-! ## Phases of all threads -/

/-- The jobs and phases of the running threads; a returned thread has none. -/
def running (phases : List (Option (Job × Phase))) : Multiset (Job × Phase) :=
  (phases.reduceOption : List (Job × Phase))

theorem running_append (phases : List (Option (Job × Phase))) (x : Option (Job × Phase)) :
    running (phases ++ [x]) = (x.toList : Multiset (Job × Phase)) + running phases := by
  rw [running, running, Multiset.coe_add, Multiset.coe_eq_coe, List.reduceOption_append,
    List.reduceOption_singleton]
  exact List.perm_append_comm

/-- The phase of one running thread in front of those of the others. -/
theorem running_eraseIdx {x : Job × Phase} (h : phases[i]? = some (some x)) :
    running phases = x ::ₘ running (phases.eraseIdx i) := by
  obtain ⟨hi, hx⟩ := List.getElem?_eq_some_iff.mp h
  have hperm := (List.getElem_cons_eraseIdx_perm hi).symm.filterMap id
  rw [hx] at hperm
  rw [running, running, Multiset.cons_coe, Multiset.coe_eq_coe]
  exact hperm

/-- Replacing the phase of one thread. -/
theorem running_set (h : i < phases.length) (x : Option (Job × Phase)) :
    running (phases.set i x) =
      (x.toList : Multiset (Job × Phase)) + running (phases.eraseIdx i) := by
  have hperm := (List.set_perm_cons_eraseIdx h x).filterMap id
  rw [running, running, Multiset.coe_add, Multiset.coe_eq_coe]
  cases x with
  | none => exact hperm
  | some x => exact hperm

/-- What the phase of a thread says: a running thread is safe from it, and a thread without one has
returned. -/
def Fits (O : Outline Op Resp State Choice Job α Phase) (M : Machine Op Resp State Choice)
    (history : List (Event Op Resp State Choice Job)) (i : Nat) (t : Thread Op Resp Job α) :
    Option (Job × Phase) → Prop
  | some x => x.1 = t.job ∧ t.finished = false ∧ O.Safe M i t.job (O.ends i t.job) x.2 t.program
  | none => ∃ value, t.program = .ret value ∧ O.settled i t.job value history

/-- The phases of all threads. -/
structure Tracks (O : Outline Op Resp State Choice Job α Phase) (M : Machine Op Resp State Choice)
    (history : List (Event Op Resp State Choice Job)) (phases : List (Option (Job × Phase)))
    (threads : List (Thread Op Resp Job α)) : Prop where
  /-- Every thread has its place in the list. -/
  length_eq : phases.length = threads.length
  /-- The phases say what they should. -/
  fits : ∀ (i : Nat) (x : Option (Job × Phase)) (t : Thread Op Resp Job α),
    phases[i]? = some x → threads[i]? = some t → O.Fits M history i t x

/-- A new thread and its phase. -/
theorem Tracks.append (h : Tracks O M history phases threads)
    (ht : O.Fits M history threads.length t x) :
    Tracks O M history (phases ++ [x]) (threads ++ [t]) := by
  refine ⟨by simp [h.length_eq], fun i x' t' hx ht' => ?_⟩
  rw [List.getElem?_append] at hx ht'
  rw [h.length_eq] at hx
  split at hx
  · rename_i hi
    rw [if_pos hi] at ht'
    exact h.fits i x' t' hx ht'
  · rename_i hi
    rw [if_neg hi] at ht'
    obtain ⟨hlen, rfl⟩ := by simpa [List.getElem?_singleton] using hx
    obtain ⟨-, rfl⟩ := by simpa [List.getElem?_singleton] using ht'
    obtain rfl : i = threads.length := by omega
    exact ht

section

variable (hvalid : O.Valid P s₀)

include hvalid

/-- A step of one thread moves the thread and its phase together. -/
theorem Tracks.set {e : Event Op Resp State Choice Job}
    (h : Tracks O M history phases threads) (ht : O.Fits M (e :: history) i t x) :
    Tracks O M (e :: history) (phases.set i x) (threads.set i t) := by
  refine ⟨by simp [h.length_eq], fun j x' t' hx ht' => ?_⟩
  rw [List.getElem?_set] at hx ht'
  by_cases hij : i = j
  · subst hij
    rw [if_pos rfl] at hx ht'
    split at hx
    · rename_i hlen
      rw [if_pos (h.length_eq ▸ hlen)] at ht'
      obtain rfl := by simpa using hx
      obtain rfl := by simpa using ht'
      exact ht
    · simp at hx
  · rw [if_neg hij] at hx ht'
    have hfits := h.fits j x' t' hx ht'
    cases x' with
    | some x' => exact hfits
    | none =>
      obtain ⟨value, hvalue, hsettled⟩ := hfits
      exact ⟨value, hvalue, hvalid.settled_cons _ _ _ _ _ hsettled⟩

/-- A thread that is safe from a phase either runs on in it or has returned and is retired. -/
theorem Valid.place {s : State} {φ : Phase}
    {rest : Multiset (Job × Phase)} (hinv : O.inv s history ((t.job, φ) ::ₘ rest))
    (hsafe : O.Safe M i t.job (O.ends i t.job) φ t.program) :
    ∃ x : Option (Job × Phase), O.Fits M history i t x ∧
      O.inv s history ((x.toList : Multiset (Job × Phase)) + rest) := by
  obtain ⟨job, program⟩ := t
  cases program with
  | ret value =>
    obtain ⟨hrest, hsettled⟩ := hvalid.retire i job φ value s history rest hsafe hinv
    exact ⟨none, ⟨value, rfl, hsettled⟩, by simpa using hrest⟩
  | call op next => exact ⟨some (job, φ), ⟨rfl, rfl, hsafe⟩, by simpa using hinv⟩

/-- **Soundness.** In every world reached by permitted operations the threads have fitting phases
that satisfy the invariant. -/
theorem Valid.tracks (hreach : P.Reachable (World.start s₀) w)
    (hperm : ∀ e ∈ w.history, O.permitted e) :
    ∃ phases, Tracks O P.machine w.history phases w.threads ∧
      O.inv w.shared w.history (running phases) := by
  revert hperm
  refine Pool.Reachable.induction (I := fun w => (∀ e ∈ w.history, O.permitted e) →
    ∃ phases, Tracks O P.machine w.history phases w.threads ∧
      O.inv w.shared w.history (running phases)) hreach ?_ ?_
  · intro _
    exact ⟨[], ⟨rfl, by simp [World.start]⟩, hvalid.start⟩
  · intro w a w' ih hact hperm
    cases a with
    | spawn job =>
      obtain ⟨hadmits, rfl⟩ := Pool.act_spawn_iff.mp hact
      obtain ⟨phases, htracks, hinv⟩ := ih hperm
      have hrunning : ∀ x ∈ running phases, ∃ t ∈ w.threads, t.job = x.1 ∧ t.finished = false := by
        intro x hx
        rw [running, Multiset.mem_coe, List.reduceOption_mem_iff] at hx
        obtain ⟨i, hi⟩ := List.mem_iff_getElem?.mp hx
        have hlt : i < w.threads.length := by
          rw [← htracks.length_eq]
          exact (List.getElem?_eq_some_iff.mp hi).1
        have ht := List.getElem?_eq_getElem hlt
        obtain ⟨hjob, hfin, -⟩ := htracks.fits i _ _ hi ht
        exact ⟨w.threads[i], List.getElem_mem hlt, hjob.symm, hfin⟩
      obtain ⟨φ, hinv', hsafe⟩ := hvalid.spawn job _ _ _ _ hinv hadmits hrunning
      obtain ⟨x, hfits, hinv''⟩ := hvalid.place (t := ⟨job, P.code job⟩) hinv'
        (hsafe w.threads.length)
      refine ⟨phases ++ [x], htracks.append hfits, ?_⟩
      rw [running_append]
      exact hinv''
    | step i c =>
      obtain ⟨job, op, next, resp, s, hthread, hexec, rfl⟩ := Pool.act_step_iff.mp hact
      obtain ⟨phases, htracks, hinv⟩ := ih fun e he => hperm e (List.mem_cons_of_mem _ he)
      have hi : i < phases.length := by
        rw [htracks.length_eq]
        exact (List.getElem?_eq_some_iff.mp hthread).1
      have hx : phases[i]? = some phases[i] := List.getElem?_eq_getElem hi
      have hfits := htracks.fits i _ _ hx hthread
      -- The stepping thread has not returned, so it has a phase.
      cases hphase : phases[i] with
      | none =>
        rw [hphase] at hfits
        obtain ⟨value, hvalue, -⟩ := hfits
        cases hvalue
      | some x =>
        obtain ⟨j, φ⟩ := x
        rw [hphase] at hfits hx
        obtain ⟨hjob, -, hsafe⟩ := hfits
        obtain rfl : j = job := hjob
        rw [running_eraseIdx hx] at hinv
        obtain ⟨φ', hinv', hsafe'⟩ := hsafe c resp _ s _ _ hinv hexec
          (hperm _ List.mem_cons_self)
        obtain ⟨x', hfits', hinv''⟩ := hvalid.place (t := ⟨j, next resp⟩) hinv' hsafe'
        refine ⟨phases.set i x', htracks.set hvalid hfits', ?_⟩
        rw [running_set hi]
        exact hinv''

/-- The invariant in a reached world. -/
theorem Valid.inv (hreach : P.Reachable (World.start s₀) w)
    (hperm : ∀ e ∈ w.history, O.permitted e) : ∃ running, O.inv w.shared w.history running := by
  obtain ⟨phases, -, hinv⟩ := hvalid.tracks hreach hperm
  exact ⟨_, hinv⟩

/-- What is known of the returned threads of a reached world. -/
theorem Valid.settled (hreach : P.Reachable (World.start s₀) w)
    (hperm : ∀ e ∈ w.history, O.permitted e) {job : Job} {value : α}
    (hreturned : w.returned i = some (job, value)) : O.settled i job value w.history := by
  have hthread := World.returned_eq_some_iff.mp hreturned
  obtain ⟨phases, htracks, -⟩ := hvalid.tracks hreach hperm
  have hi : i < phases.length := by
    rw [htracks.length_eq]
    exact (List.getElem?_eq_some_iff.mp hthread).1
  have hfits := htracks.fits i _ _ (List.getElem?_eq_getElem hi) hthread
  cases hphase : phases[i] with
  | none =>
    rw [hphase] at hfits
    obtain ⟨v, hv, hsettled⟩ := hfits
    cases hv
    exact hsettled
  | some x =>
    rw [hphase] at hfits
    exact absurd hfits.2.1 (by simp [Thread.finished])

/-- In a world in which every thread has returned, the invariant holds without phases. -/
theorem Valid.inv_of_quiet (hreach : P.Reachable (World.start s₀) w)
    (hperm : ∀ e ∈ w.history, O.permitted e) (hquiet : w.quiet = true) :
    O.inv w.shared w.history 0 := by
  obtain ⟨phases, htracks, hinv⟩ := hvalid.tracks hreach hperm
  have hnone : running phases = 0 := by
    rw [Multiset.eq_zero_iff_forall_notMem]
    intro x hx
    rw [running, Multiset.mem_coe, List.reduceOption_mem_iff] at hx
    obtain ⟨i, hi⟩ := List.mem_iff_getElem?.mp hx
    have hlt : i < w.threads.length := by
      rw [← htracks.length_eq]
      exact (List.getElem?_eq_some_iff.mp hi).1
    obtain ⟨-, hfin, -⟩ := htracks.fits i _ _ hi (List.getElem?_eq_getElem hlt)
    have hall := List.all_eq_true.mp hquiet w.threads[i] (List.getElem_mem hlt)
    rw [hfin] at hall
    exact absurd hall (by simp)
  rw [hnone] at hinv
  exact hinv

end

end Outline

/-! ## Locks

The phases of an outline may say who holds a lock. When the lock is a flag of the shared state, exactly
one running thread holds it while the flag is set, and none while it is not. -/

section Lock

variable (holds : Phase → Bool)

/-- One holder while the lock is taken, none while it is free. -/
def Exclusive (locked : Bool) (running : Multiset (Job × Phase)) : Prop :=
  running.countP (fun x => holds x.2 = true) = if locked then 1 else 0

variable {holds} {locked : Bool} {job : Job} {φ φ' : Phase} {rest : Multiset (Job × Phase)}

theorem exclusive_zero : Exclusive holds false (0 : Multiset (Job × Phase)) := rfl

/-- Taking the lock. -/
theorem Exclusive.acquire (h : Exclusive holds false ((job, φ) ::ₘ rest)) (hφ' : holds φ' = true) :
    Exclusive holds true ((job, φ') ::ₘ rest) := by
  rw [Exclusive, Multiset.countP_cons] at h ⊢
  rw [if_pos hφ', if_pos rfl]
  simp only [Bool.false_eq_true, if_false] at h
  omega

/-- Giving the lock back. -/
theorem Exclusive.release (h : Exclusive holds locked ((job, φ) ::ₘ rest)) (hφ : holds φ = true)
    (hφ' : holds φ' = false) : Exclusive holds false ((job, φ') ::ₘ rest) := by
  rw [Exclusive, Multiset.countP_cons] at h ⊢
  rw [if_pos hφ] at h
  rw [if_neg (by rw [hφ']; decide), if_neg (by decide)]
  split at h <;> omega

/-- Moving on without touching the lock. -/
theorem Exclusive.move (h : Exclusive holds locked ((job, φ) ::ₘ rest)) (hsame : holds φ' = holds φ) :
    Exclusive holds locked ((job, φ') ::ₘ rest) := by
  rw [Exclusive, Multiset.countP_cons] at h ⊢
  rw [hsame]
  exact h

/-- A new thread that does not hold the lock. -/
theorem Exclusive.spawn (h : Exclusive holds locked rest) (hφ : holds φ = false) :
    Exclusive holds locked ((job, φ) ::ₘ rest) := by
  rw [Exclusive, Multiset.countP_cons, if_neg (by rw [hφ]; decide)]
  exact h

/-- A thread that leaves without the lock. -/
theorem Exclusive.retire (h : Exclusive holds locked ((job, φ) ::ₘ rest)) (hφ : holds φ = false) :
    Exclusive holds locked rest := by
  rw [Exclusive, Multiset.countP_cons, if_neg (by rw [hφ]; decide)] at h
  exact h

/-- Beside a holder nobody holds the lock. -/
theorem Exclusive.alone (h : Exclusive holds locked ((job, φ) ::ₘ rest)) (hφ : holds φ = true) :
    ∀ x ∈ rest, holds x.2 = false := by
  rw [Exclusive, Multiset.countP_cons, if_pos hφ] at h
  intro x hx
  by_contra hholds
  have hpos : 0 < rest.countP (fun x => holds x.2 = true) :=
    Multiset.countP_pos.mpr ⟨x, hx, by simpa using hholds⟩
  split at h <;> omega

/-- A held lock is taken. -/
theorem Exclusive.taken (h : Exclusive holds locked ((job, φ) ::ₘ rest)) (hφ : holds φ = true) :
    locked = true := by
  rw [Exclusive, Multiset.countP_cons, if_pos hφ] at h
  by_contra hfree
  rw [if_neg hfree] at h
  omega

end Lock

/-! ## Roles

The jobs of a pool may be of two kinds, of which one runs one at a time. The phases that only this kind
goes through are then phases of one running thread at most. -/

section Roles

variable (isHost : Job → Bool) (own : Phase → Bool)

/-- The phases of hosts belong to hosts, and one host runs at a time. -/
structure Roles (running : Multiset (Job × Phase)) : Prop where
  host : ∀ x ∈ running, own x.2 = true → isHost x.1 = true
  single : running.countP (fun x => isHost x.1 = true) ≤ 1

variable {isHost own} {job : Job} {φ φ' : Phase} {rest : Multiset (Job × Phase)}

theorem roles_zero : Roles isHost own (0 : Multiset (Job × Phase)) :=
  ⟨fun x hx => absurd hx (Multiset.notMem_zero x), by simp⟩

/-- A thread moves to another phase of its role. -/
theorem Roles.move (h : Roles isHost own ((job, φ) ::ₘ rest))
    (hrole : own φ' = true → isHost job = true) : Roles isHost own ((job, φ') ::ₘ rest) := by
  refine ⟨fun x hx hx' => ?_, ?_⟩
  · rcases Multiset.mem_cons.mp hx with rfl | hx
    · exact hrole hx'
    · exact h.host x (Multiset.mem_cons_of_mem hx) hx'
  · have := h.single
    rw [Multiset.countP_cons] at this ⊢
    exact this

/-- Beside a running host no other thread is in a phase of hosts. -/
theorem Roles.alone (h : Roles isHost own ((job, φ) ::ₘ rest)) (hhost : isHost job = true) :
    ∀ x ∈ rest, own x.2 = false := by
  intro x hx
  have hsingle := h.single
  rw [Multiset.countP_cons, if_pos hhost] at hsingle
  have hzero : rest.countP (fun x => isHost x.1 = true) = 0 := by omega
  by_contra hown
  have hxhost := h.host x (Multiset.mem_cons_of_mem hx) (by simpa using hown)
  exact Multiset.countP_eq_zero.mp hzero x hx hxhost

/-- A thread leaves. -/
theorem Roles.retire (h : Roles isHost own ((job, φ) ::ₘ rest)) : Roles isHost own rest where
  host x hx := h.host x (Multiset.mem_cons_of_mem hx)
  single := (Multiset.countP_le_of_le _ (Multiset.le_cons_self _ _)).trans h.single

/-- A thread starts outside the phases of hosts; a host starts beside no other. -/
theorem Roles.spawn (h : Roles isHost own rest) (hown : own φ = false)
    (halone : isHost job = true → ∀ x ∈ rest, isHost x.1 = false) :
    Roles isHost own ((job, φ) ::ₘ rest) where
  host x hx hx' := by
    rcases Multiset.mem_cons.mp hx with rfl | hx
    · rw [hown] at hx'
      cases hx'
    · exact h.host x hx hx'
  single := by
    rw [Multiset.countP_cons]
    split
    · rename_i hhost
      have hzero : rest.countP (fun x => isHost x.1 = true) = 0 :=
        Multiset.countP_eq_zero.mpr fun x hx => by simp [halone hhost x hx]
      omega
    · exact h.single

end Roles

end Interleaving
