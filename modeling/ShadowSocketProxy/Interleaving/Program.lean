import Mathlib.Data.Multiset.AddSub

/-! # Programs over atomic operations

A program is a tree: it either returns a value or issues one atomic operation on a shared state and
continues with the operation's response. Cutting a routine into such a tree fixes where other
threads may run in between, and leaves both readings of the routine available: run alone, operation
after operation (`Interleaving.Sequential`), or interleaved with others (`Interleaving.Pool`). -/

namespace Interleaving

/-- A program over the operations `Op`, where `op` is answered by a value of type `Resp op`. -/
inductive Program (Op : Type) (Resp : Op → Type) (α : Type) where
  /-- The program has returned. -/
  | ret (value : α) : Program Op Resp α
  /-- Issue `op`, then continue with its response. -/
  | call (op : Op) (next : Resp op → Program Op Resp α) : Program Op Resp α

/-- The meaning of the operations: in a shared state `s` and under an environment choice `c`,
`exec c op s` is the response and the state after `op`, or `none` when `op` has to wait. -/
structure Machine (Op : Type) (Resp : Op → Type) (State Choice : Type) where
  /-- Execute one operation. -/
  exec : Choice → (op : Op) → State → Option (Resp op × State)

namespace Program

variable {Op ε : Type} {Resp : Op → Type} {α β γ : Type} {p q : Program Op Resp α}
  {f : α → Program Op Resp β} {value : α} {allowed : Op → Prop} {op : Op} {P : γ → Op → Prop}

/-- Run the first program, then the one its value selects. -/
def bind : Program Op Resp α → (α → Program Op Resp β) → Program Op Resp β
  | .ret value, f => f value
  | .call op next, f => .call op fun resp => (next resp).bind f

/-- The program that issues one operation and returns its response. -/
def perform (op : Op) : Program Op Resp (Resp op) := .call op .ret

instance : Monad (Program Op Resp) where
  pure := .ret
  bind := Program.bind

@[simp] theorem pure_eq_ret (value : α) : (pure value : Program Op Resp α) = .ret value := rfl

@[simp] theorem ret_bind (value : α) (f : α → Program Op Resp β) :
    (Program.ret value >>= f) = f value := rfl

@[simp] theorem call_bind (op : Op) (next : Resp op → Program Op Resp α)
    (f : α → Program Op Resp β) :
    (Program.call op next >>= f) = .call op fun resp => next resp >>= f := rfl

@[simp] theorem perform_bind (op : Op) (f : Resp op → Program Op Resp β) :
    (perform op >>= f) = .call op f := rfl

/-- Returning the value of a program is that program. -/
theorem bind_ret (p : Program Op Resp α) : (p >>= Program.ret) = p := by
  induction p with
  | ret value => rfl
  | call op next ih => simp only [call_bind, ih]

/-- Sequencing is associative. -/
theorem bind_assoc (p : Program Op Resp α) (f : α → Program Op Resp β)
    (g : β → Program Op Resp γ) : (p >>= f >>= g) = p >>= fun a => f a >>= g := by
  induction p with
  | ret value => rfl
  | call op next ih => simp only [call_bind, ih]

instance : LawfulMonad (Program Op Resp) :=
  LawfulMonad.mk' (Program Op Resp) bind_ret (fun _ _ => rfl) bind_assoc

/-- The value of a program that has returned. -/
def value? : Program Op Resp α → Option α
  | .ret value => some value
  | .call _ _ => none

@[simp] theorem value?_ret (value : α) : (Program.ret value : Program Op Resp α).value? = some value :=
  rfl

@[simp] theorem value?_call (op : Op) (next : Resp op → Program Op Resp α) :
    (Program.call op next).value? = none := rfl

theorem value?_eq_some : p.value? = some value ↔ p = .ret value := by
  cases p with
  | ret v => simp
  | call op next => simp

/-! ## Operations of a program -/

/-- Every operation the program may issue satisfies `allowed`. -/
def All (allowed : Op → Prop) : Program Op Resp α → Prop
  | .ret _ => True
  | .call op next => allowed op ∧ ∀ resp, (next resp).All allowed

@[simp] theorem all_ret (allowed : Op → Prop) (value : α) :
    (Program.ret value : Program Op Resp α).All allowed := trivial

@[simp] theorem all_perform (allowed : Op → Prop) (op : Op) :
    (perform op : Program Op Resp (Resp op)).All allowed ↔ allowed op :=
  ⟨fun h => h.1, fun h => ⟨h, fun _ => trivial⟩⟩

@[simp] theorem all_perform_bind (allowed : Op → Prop) (op : Op) (f : Resp op → Program Op Resp β) :
    (perform op >>= f).All allowed ↔ allowed op ∧ ∀ resp, (f resp).All allowed := Iff.rfl

/-- The operations of a sequence. -/
theorem All.bind (hp : p.All allowed) (hf : ∀ a, (f a).All allowed) : (p >>= f).All allowed := by
  induction p with
  | ret value => exact hf value
  | call op next ih => exact ⟨hp.1, fun resp => ih resp (hp.2 resp)⟩

/-- A larger set of operations. -/
theorem All.mono {allowed' : Op → Prop} (hp : p.All allowed) (h : ∀ op, allowed op → allowed' op) :
    p.All allowed' := by
  induction p with
  | ret value => trivial
  | call op next ih => exact ⟨h op hp.1, fun resp => ih resp (hp.2 resp)⟩

/-- The operations of a branch. -/
@[simp] theorem all_ite {c : Prop} [Decidable c] :
    (if c then p else q).All allowed ↔ (c → p.All allowed) ∧ (¬ c → q.All allowed) := by
  split <;> simp [*]

/-- The operations of a sequence of fallible programs. -/
theorem All.bindE {p : ExceptT ε (Program Op Resp) α} {f : α → ExceptT ε (Program Op Resp) β}
    (hp : p.run.All allowed) (hf : ∀ a, (f a).run.All allowed) : (p >>= f).run.All allowed := by
  rw [ExceptT.run_bind]
  refine hp.bind fun result => ?_
  cases result with
  | ok a => exact hf a
  | error e => trivial

/-! ## Values of a program -/

/-- Every value the program may return satisfies `Q`, whatever its operations answer. -/
def Yields (Q : α → Prop) : Program Op Resp α → Prop
  | .ret value => Q value
  | .call _ next => ∀ resp, (next resp).Yields Q

/-- The values of a sequence are values of its second part. -/
theorem Yields.of_bind {Q : β → Prop} (p : Program Op Resp α) (hf : ∀ a, (f a).Yields Q) :
    (p >>= f).Yields Q := by
  induction p with
  | ret value => exact hf value
  | call op next ih => exact fun resp => ih resp

/-- Every error a fallible program may end with satisfies `E`, whatever its operations answer. -/
def FailsOnly {ε : Type} (E : ε → Prop) (p : ExceptT ε (Program Op Resp) α) : Prop :=
  p.run.Yields fun r => ∀ e, r = .error e → E e

/-- A sequence fails as its parts do. -/
theorem FailsOnly.bind {E : ε → Prop} {p : ExceptT ε (Program Op Resp) α}
    {f : α → ExceptT ε (Program Op Resp) β} (hp : FailsOnly E p) (hf : ∀ a, FailsOnly E (f a)) :
    FailsOnly E (p >>= f) := by
  unfold FailsOnly at *
  rw [ExceptT.run_bind]
  generalize p.run = q at hp
  induction q with
  | ret r =>
    cases r with
    | ok a => exact hf a
    | error e => exact fun e' he' => hp e' (by cases he'; rfl)
  | call op next ih => exact fun resp => ih resp (hp resp)

/-! ## Paths

A path of a program is one sequence of answered operations it can go through, whatever state
produced the answers. What a thread does under interference is one of its paths. -/

/-- One answered operation. -/
abbrev Answer (Op : Type) (Resp : Op → Type) : Type := Σ op : Op, Resp op

/-- `Path p answers q`: after the answered operations `answers`, the program `p` has become `q`. -/
inductive Path : Program Op Resp α → List (Answer Op Resp) → Program Op Resp α → Prop where
  | nil (p : Program Op Resp α) : Path p [] p
  | cons {op : Op} {next : Resp op → Program Op Resp α} {resp : Resp op}
      {answers : List (Answer Op Resp)} {q : Program Op Resp α} :
      Path (next resp) answers q → Path (.call op next) (⟨op, resp⟩ :: answers) q

variable {answers : List (Answer Op Resp)}

/-- A returned program goes nowhere. -/
theorem path_ret_iff : Path (.ret value) answers q ↔ answers = [] ∧ q = .ret value := by
  constructor
  · rintro ⟨⟩
    exact ⟨rfl, rfl⟩
  · rintro ⟨rfl, rfl⟩
    exact .nil _

/-- A complete path of a calling program starts with an answer to its operation. -/
theorem path_call_iff {next : Resp op → Program Op Resp α} :
    Path (.call op next) answers (.ret value) ↔
      ∃ resp rest, answers = ⟨op, resp⟩ :: rest ∧ Path (next resp) rest (.ret value) := by
  constructor
  · rintro (_ | h)
    exact ⟨_, _, rfl, h⟩
  · rintro ⟨resp, rest, rfl, h⟩
    exact .cons h

theorem path_perform_bind_iff {f : Resp op → Program Op Resp α} :
    Path (perform op >>= f) answers (.ret value) ↔
      ∃ resp rest, answers = ⟨op, resp⟩ :: rest ∧ Path (f resp) rest (.ret value) := path_call_iff

/-- The operations on a path are operations of the program. -/
theorem Path.all (h : Path p answers q) (hp : p.All allowed) : ∀ a ∈ answers, allowed a.1 := by
  induction h with
  | nil p => simp
  | cons _ ih =>
    intro a ha
    rcases List.mem_cons.mp ha with rfl | ha
    · exact hp.1
    · exact ih (hp.2 _) a ha

/-- The value at the end of a complete path is a value of the program. -/
theorem Path.yields {Q : α → Prop} (h : Path p answers (.ret value)) (hp : p.Yields Q) :
    Q value := by
  generalize hq : Program.ret value = q at h
  induction h with
  | nil p => subst hq; exact hp
  | cons _ ih => exact ih (hp _) hq

/-- A path can be prolonged by one answer. -/
theorem Path.snoc {next : Resp op → Program Op Resp α} (h : Path p answers (.call op next))
    (resp : Resp op) : Path p (answers ++ [⟨op, resp⟩]) (next resp) := by
  generalize hq : Program.call op next = q at h
  induction h with
  | nil p => subst hq; exact .cons (.nil _)
  | cons _ ih => exact .cons (ih hq)

/-- A complete path of a sequence splits into one of its first part and one of its second. -/
theorem path_bind_iff {value : β} :
    Path (p >>= f) answers (.ret value) ↔
      ∃ a first second, answers = first ++ second ∧ Path p first (.ret a) ∧
        Path (f a) second (.ret value) := by
  induction p generalizing answers with
  | ret a =>
    simp only [ret_bind, path_ret_iff]
    constructor
    · intro h
      exact ⟨a, [], answers, rfl, ⟨rfl, rfl⟩, h⟩
    · rintro ⟨b, first, second, rfl, ⟨rfl, hb⟩, h⟩
      obtain rfl : b = a := by simpa using hb
      exact h
  | call op next ih =>
    simp only [call_bind, path_call_iff, ih]
    constructor
    · rintro ⟨resp, rest, rfl, a, first, second, rfl, h₁, h₂⟩
      exact ⟨a, _ :: first, second, rfl, ⟨resp, first, rfl, h₁⟩, h₂⟩
    · rintro ⟨a, first, second, rfl, ⟨resp, rest, rfl, h₁⟩, h₂⟩
      exact ⟨resp, rest ++ second, rfl, a, rest, second, rfl, h₁, h₂⟩

/-- A path of a sequence stays in its first part, or goes through it into its second. -/
theorem Path.of_bind {q : Program Op Resp β} (h : Path (p >>= f) answers q) :
    (∃ p', Path p answers p') ∨
      ∃ a first second, answers = first ++ second ∧ Path p first (.ret a) ∧ Path (f a) second q := by
  induction p generalizing answers with
  | ret a => exact .inr ⟨a, [], answers, rfl, .nil _, h⟩
  | call op next ih =>
    rw [call_bind] at h
    cases h with
    | nil => exact .inl ⟨_, .nil _⟩
    | cons h =>
      rcases ih _ h with ⟨p', hp⟩ | ⟨a, first, second, rfl, hp, hf⟩
      · exact .inl ⟨p', .cons hp⟩
      · exact .inr ⟨a, _ :: first, second, rfl, .cons hp, hf⟩

/-- `p.Comes fair goal Q`: on every complete path whose answers are all `fair` there is an answer in
`goal`, or the value at its end satisfies `Q`. -/
def Comes (fair goal : Answer Op Resp → Prop) (Q : α → Prop) (p : Program Op Resp α) : Prop :=
  ∀ answers value, Path p answers (.ret value) → (∀ a ∈ answers, fair a) →
    (∃ a ∈ answers, goal a) ∨ Q value

section Comes

variable {fair goal : Answer Op Resp → Prop} {Q : α → Prop} {R : β → Prop}

theorem Comes.of_yields {p : Program Op Resp α} (hp : p.Yields Q) : p.Comes fair goal Q :=
  fun _ _ hpath _ => .inr (hpath.yields hp)

/-- The sequencing rule for what a program comes to. -/
theorem Comes.bind {p : Program Op Resp α} {f : α → Program Op Resp β} (hp : p.Comes fair goal Q)
    (hf : ∀ a, Q a → (f a).Comes fair goal R) : (p >>= f).Comes fair goal R := by
  intro answers value hpath hfair
  obtain ⟨a, first, second, rfl, hfirst, hsecond⟩ := path_bind_iff.mp hpath
  rcases hp first a hfirst fun x hx => hfair x (List.mem_append_left _ hx) with ⟨x, hx, hgoal⟩ | hQ
  · exact .inl ⟨x, List.mem_append_left _ hx, hgoal⟩
  · rcases hf a hQ second value hsecond fun x hx => hfair x (List.mem_append_right _ hx) with
      ⟨x, hx, hgoal⟩ | hR
    · exact .inl ⟨x, List.mem_append_right _ hx, hgoal⟩
    · exact .inr hR

/-- The sequencing rule for a first program of which nothing has to be known. -/
theorem Comes.skip (p : Program Op Resp α) {f : α → Program Op Resp β}
    (hf : ∀ a, (f a).Comes fair goal R) : (p >>= f).Comes fair goal R := by
  have hp : p.Yields fun _ => True := by
    rw [← bind_ret p]
    exact Yields.of_bind p fun _ => trivial
  exact (Comes.of_yields hp).bind fun a _ => hf a

/-- The sequencing rule for fallible programs. -/
theorem Comes.bindE {ε : Type} {Q : Except ε α → Prop} {R : Except ε β → Prop}
    {p : ExceptT ε (Program Op Resp) α} {f : α → ExceptT ε (Program Op Resp) β}
    (hp : p.run.Comes fair goal Q) (hok : ∀ a, Q (.ok a) → (f a).run.Comes fair goal R)
    (herror : ∀ e, Q (.error e) → R (.error e)) : (p >>= f).run.Comes fair goal R := by
  rw [ExceptT.run_bind]
  refine hp.bind fun result hQ => ?_
  cases result with
  | ok a => exact hok a hQ
  | error e => exact .of_yields (herror e hQ)

/-- One operation, then the rest. -/
theorem Comes.perform {op : Op} {f : Resp op → Program Op Resp α}
    (h : ∀ resp, fair ⟨op, resp⟩ → goal ⟨op, resp⟩ ∨ (f resp).Comes fair goal Q) :
    (Program.perform op >>= f).Comes fair goal Q := by
  intro answers value hpath hfair
  obtain ⟨resp, rest, rfl, hrest⟩ := path_perform_bind_iff.mp hpath
  rcases h resp (hfair _ List.mem_cons_self) with hgoal | hcomes
  · exact .inl ⟨_, List.mem_cons_self, hgoal⟩
  · refine (hcomes rest value hrest fun a ha => hfair a (List.mem_cons_of_mem _ ha)).imp_left ?_
    exact fun ⟨a, ha, hgoal⟩ => ⟨a, List.mem_cons_of_mem _ ha, hgoal⟩

end Comes

/-- `p.Given known good`: as long as the answers that `p` gets are `known`, they are `good`. -/
def Given (known good : Answer Op Resp → Prop) : Program Op Resp α → Prop
  | .ret _ => True
  | .call op next => ∀ resp, known ⟨op, resp⟩ → good ⟨op, resp⟩ ∧ Given known good (next resp)

section Given

variable {known good : Answer Op Resp → Prop} {p : Program Op Resp α}

theorem Given.of_all (hp : p.All fun op => ∀ resp, good ⟨op, resp⟩) : p.Given known good := by
  induction p with
  | ret value => trivial
  | call op next ih => exact fun resp _ => ⟨hp.1 resp, ih resp (hp.2 resp)⟩

/-- The sequencing rule. -/
theorem Given.bind {f : α → Program Op Resp β} (hp : p.Given known good)
    (hf : ∀ value, (f value).Given known good) : (p >>= f).Given known good := by
  induction p with
  | ret value => exact hf value
  | call op next ih => exact fun resp hknown => ⟨(hp resp hknown).1, ih resp (hp resp hknown).2⟩

/-- One operation, then the rest. -/
theorem Given.perform {op : Op} {f : Resp op → Program Op Resp α} (hop : ∀ resp, good ⟨op, resp⟩)
    (hf : ∀ resp, known ⟨op, resp⟩ → (f resp).Given known good) :
    (Program.perform op >>= f).Given known good :=
  fun resp hknown => ⟨hop resp, hf resp hknown⟩

/-- The answers on a path are good when all of them are known. -/
theorem Path.given {q : Program Op Resp α} {answers : List (Answer Op Resp)}
    (h : Path p answers q) (hp : p.Given known good) (hknown : ∀ a ∈ answers, known a) :
    ∀ a ∈ answers, good a := by
  induction h with
  | nil p => simp
  | cons _ ih =>
    rw [List.forall_mem_cons] at hknown ⊢
    obtain ⟨hgood, hrest⟩ := hp _ hknown.1
    exact ⟨hgood, ih hrest hknown.2⟩

end Given

/-- Programs put together from blocks: a block, a returned value, or a program and one that goes on with
its value. What holds of the blocks and is kept by sequencing holds of all of them. -/
inductive Built (block : (β : Type) → Program Op Resp β → Prop) : (β : Type) → Program Op Resp β → Prop
  | block {β : Type} {p : Program Op Resp β} (h : block β p) : Built block β p
  | ret {β : Type} (value : β) : Built block β (.ret value)
  | bind {β γ : Type} {p : Program Op Resp β} {f : β → Program Op Resp γ} (hp : Built block β p)
      (hf : ∀ value, Built block γ (f value)) : Built block γ (p >>= f)

/-- The sequencing rule for fallible programs. -/
theorem Built.bindE {block : (β : Type) → Program Op Resp β → Prop}
    {p : ExceptT ε (Program Op Resp) α} {f : α → ExceptT ε (Program Op Resp) β}
    (hp : Built block _ p.run) (hf : ∀ value, Built block _ (f value).run) :
    Built block _ (p >>= f).run := by
  rw [ExceptT.run_bind]
  refine hp.bind fun result => ?_
  cases result with
  | ok value => exact hf value
  | error error => exact .ret _

/-- The operations of every path satisfy `P` for one value, which may depend on the path. -/
def AllSome (P : γ → Op → Prop) (p : Program Op Resp α) : Prop :=
  ∀ answers q, Path p answers q → ∃ c, ∀ a ∈ answers, P c a.1

theorem AllSome.of_all {c : γ} (h : p.All (P c)) : AllSome P p :=
  fun _ _ hpath => ⟨c, hpath.all h⟩

/-- A sequence whose first part leaves the value open. -/
theorem AllSome.bind (c : γ) (hp : p.All fun op => ∀ c, P c op) (hf : ∀ a, AllSome P (f a)) :
    AllSome P (p >>= f) := by
  intro answers q hpath
  rcases hpath.of_bind with ⟨p', hfirst⟩ | ⟨a, first, second, rfl, hfirst, hsecond⟩
  · exact ⟨c, fun a ha => hfirst.all hp a ha c⟩
  · obtain ⟨c, hc⟩ := hf a second q hsecond
    refine ⟨c, fun a' ha' => ?_⟩
    rcases List.mem_append.mp ha' with hmem | hmem
    · exact hfirst.all hp a' hmem c
    · exact hc a' hmem

/-- A sequence whose second part leaves the value open. -/
theorem AllSome.bind_all (hp : AllSome P p) (hf : ∀ a, (f a).All fun op => ∀ c, P c op) :
    AllSome P (p >>= f) := by
  intro answers q hpath
  rcases hpath.of_bind with ⟨p', hfirst⟩ | ⟨a, first, second, rfl, hfirst, hsecond⟩
  · exact hp answers p' hfirst
  · obtain ⟨c, hc⟩ := hp first _ hfirst
    refine ⟨c, fun a' ha' => ?_⟩
    rcases List.mem_append.mp ha' with hmem | hmem
    · exact hc a' hmem
    · exact hsecond.all (hf a) a' hmem c

end Program

end Interleaving
