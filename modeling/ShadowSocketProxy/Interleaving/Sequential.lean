import ShadowSocketProxy.Interleaving.Program

/-! # Programs run alone

The sequential reading of a program: its operations are executed one after the other with nothing in
between. The environment still resolves what an operation leaves open (a clock reading, a failing
allocation), so a run is relative to a set of allowed choices.

* `Machine.run` executes a program on an explicit list of choices.
* `Machine.Returns` and `Machine.Stops` are the relations behind it: a complete run, and a run cut
  off after any operation.
* `Machine.wp` and `Machine.always` are the rules to reason about them.
* `Machine.Serial` puts complete runs one behind the other. -/

namespace Interleaving

namespace Machine

variable {Op ε : Type} {Resp : Op → Type} {State Choice α β : Type}
  (M : Machine Op Resp State Choice) {s s' : State} {p : Program Op Resp α} {I : State → Prop}
  {Q R : α → State → Prop} {value : α} {choices : List Choice} {op : Op}
  {r : α × State × List Choice} {f : α → Program Op Resp β} {allowedOp : Op → Prop}

/-- Execute a program on a list of choices, one for each operation. The result is the value, the
final state and the choices left over; `none` when an operation waits or the choices run out. -/
def run : Program Op Resp α → List Choice → State → Option (α × State × List Choice)
  | .ret value, choices, s => some (value, s, choices)
  | .call _ _, [], _ => none
  | .call op next, c :: choices, s =>
    match M.exec c op s with
    | none => none
    | some (resp, s') => run (next resp) choices s'

/-- `M.Returns allowed p s value s'`: run alone from `s` under allowed choices, `p` can return
`value` in the state `s'`. -/
def Returns (allowed : Choice → Prop) : Program Op Resp α → State → α → State → Prop
  | .ret value, s, result, s' => result = value ∧ s' = s
  | .call op next, s, result, s' =>
    ∃ c resp s₁, allowed c ∧ M.exec c op s = some (resp, s₁) ∧
      Returns allowed (next resp) s₁ result s'

/-- `M.Stops allowed p s s'`: run alone from `s` under allowed choices and cut off after any number
of operations, `p` can leave the state `s'`. -/
def Stops (allowed : Choice → Prop) : Program Op Resp α → State → State → Prop
  | .ret _, s, s' => s' = s
  | .call op next, s, s' =>
    s' = s ∨ ∃ c resp s₁, allowed c ∧ M.exec c op s = some (resp, s₁) ∧
      Stops allowed (next resp) s₁ s'

/-- The weakest precondition for `Q` to hold of every value and final state. -/
def wp (allowed : Choice → Prop) : Program Op Resp α → (α → State → Prop) → State → Prop
  | .ret value, Q, s => Q value s
  | .call op next, Q, s =>
    ∀ c resp s', allowed c → M.exec c op s = some (resp, s') → wp allowed (next resp) Q s'

/-- The weakest precondition for `I` to hold of every state a run goes through, first and last
state included. -/
def always (allowed : Choice → Prop) : Program Op Resp α → (State → Prop) → State → Prop
  | .ret _, I, s => I s
  | .call op next, I, s =>
    I s ∧ ∀ c resp s', allowed c → M.exec c op s = some (resp, s') →
      always allowed (next resp) I s'

variable {M} {allowed : Choice → Prop}

/-- A run on explicit choices uses up one for each operation. -/
theorem run_call_eq_some_iff {next : Resp op → Program Op Resp α} :
    M.run (.call op next) choices s = some r ↔
      ∃ c rest resp s₁, choices = c :: rest ∧ M.exec c op s = some (resp, s₁) ∧
        M.run (next resp) rest s₁ = some r := by
  cases choices with
  | nil => simp [run]
  | cons c choices =>
    simp only [run]
    cases hexec : M.exec c op s with
    | none => simp [hexec]
    | some answer => simp [hexec, Prod.ext_iff]

theorem run_perform_bind_iff {f : Resp op → Program Op Resp α} :
    M.run (Program.perform op >>= f) choices s = some r ↔
      ∃ c rest resp s₁, choices = c :: rest ∧ M.exec c op s = some (resp, s₁) ∧
        M.run (f resp) rest s₁ = some r :=
  run_call_eq_some_iff

/-- A run on explicit choices, all of them allowed, is a complete run. -/
theorem returns_of_run {rest : List Choice} (hrun : M.run p choices s = some (value, s', rest))
    (hall : ∀ c ∈ choices, allowed c) : M.Returns allowed p s value s' := by
  induction p generalizing choices s with
  | ret v =>
    simp only [run, Option.some.injEq, Prod.mk.injEq] at hrun
    exact ⟨hrun.1.symm, hrun.2.1.symm⟩
  | call op next ih =>
    obtain ⟨c, choices, resp, s₁, rfl, hexec, hrun⟩ := run_call_eq_some_iff.mp hrun
    exact ⟨c, resp, s₁, hall c (by simp), hexec, ih resp hrun fun c' hc' => hall c' (by simp [hc'])⟩

/-- A run on explicit choices whose result passes a check gives a complete run with that result. -/
theorem exists_returns_of_run (allowed : Choice → Prop) (check : α → State → Bool)
    (hrun : (M.run p choices s).any (fun r => check r.1 r.2.1) = true)
    (hall : ∀ c ∈ choices, allowed c) :
    ∃ value s', M.Returns allowed p s value s' ∧ check value s' = true := by
  cases h : M.run p choices s with
  | none =>
    rw [h] at hrun
    cases hrun
  | some r =>
    rw [h] at hrun
    exact ⟨r.1, r.2.1, returns_of_run h hall, hrun⟩

/-- Where no operation waits, every program runs to its end. -/
theorem exists_returns (htotal : ∀ op s, ∃ c, allowed c ∧ (M.exec c op s).isSome) :
    ∃ value s', M.Returns allowed p s value s' := by
  induction p generalizing s with
  | ret value => exact ⟨value, s, rfl, rfl⟩
  | call op next ih =>
    obtain ⟨c, hc, hsome⟩ := htotal op s
    obtain ⟨⟨resp, s₁⟩, hexec⟩ := Option.isSome_iff_exists.mp hsome
    obtain ⟨value, s', hret⟩ := ih resp (s := s₁)
    exact ⟨value, s', c, resp, s₁, hc, hexec, hret⟩

/-- A complete run under fewer choices is one under more. -/
theorem Returns.mono {allowed' : Choice → Prop} (h : M.Returns allowed p s value s')
    (hsub : ∀ c, allowed c → allowed' c) : M.Returns allowed' p s value s' := by
  induction p generalizing s with
  | ret v => exact h
  | call op next ih =>
    obtain ⟨c, resp, s₁, hc, hexec, hrest⟩ := h
    exact ⟨c, resp, s₁, hsub c hc, hexec, ih resp hrest⟩

/-- A weakest precondition speaks about every complete run. -/
theorem Returns.of_wp (hret : M.Returns allowed p s value s') (hwp : M.wp allowed p Q s) :
    Q value s' := by
  induction p generalizing s with
  | ret v =>
    obtain ⟨rfl, rfl⟩ := hret
    exact hwp
  | call op next ih =>
    obtain ⟨c, resp, s₁, hc, hexec, hret⟩ := hret
    exact ih resp hret (hwp c resp s₁ hc hexec)

/-- What holds of every complete run is a weakest precondition. -/
theorem wp_of_returns (h : ∀ value s', M.Returns allowed p s value s' → Q value s') :
    M.wp allowed p Q s := by
  induction p generalizing s with
  | ret v => exact h v s ⟨rfl, rfl⟩
  | call op next ih =>
    intro c resp s₁ hc hexec
    exact ih resp fun value s' hret => h value s' ⟨c, resp, s₁, hc, hexec, hret⟩

/-- A state left behind by a cut-off run satisfies whatever always holds. -/
theorem Stops.of_always (hstop : M.Stops allowed p s s') (halways : M.always allowed p I s) :
    I s' := by
  induction p generalizing s with
  | ret v =>
    obtain rfl := hstop
    exact halways
  | call op next ih =>
    rcases hstop with rfl | ⟨c, resp, s₁, hc, hexec, hstop⟩
    · exact halways.1
    · exact ih resp hstop (halways.2 c resp s₁ hc hexec)

@[simp] theorem wp_ret (value : α) (Q : α → State → Prop) (s : State) :
    M.wp allowed (.ret value) Q s ↔ Q value s := Iff.rfl

theorem wp_call (op : Op) (next : Resp op → Program Op Resp α) (Q : α → State → Prop) (s : State) :
    M.wp allowed (.call op next) Q s ↔
      ∀ c resp s', allowed c → M.exec c op s = some (resp, s') →
        M.wp allowed (next resp) Q s' := Iff.rfl

/-- The weakest precondition of a sequence. -/
theorem wp_bind (p : Program Op Resp α) (f : α → Program Op Resp β) (Q : β → State → Prop)
    (s : State) :
    M.wp allowed (p >>= f) Q s ↔ M.wp allowed p (fun a s' => M.wp allowed (f a) Q s') s := by
  induction p generalizing s with
  | ret value => exact Iff.rfl
  | call op next ih => simp only [Program.call_bind, wp_call, ih]

/-- A weaker postcondition has a weaker precondition. -/
theorem wp_mono (hwp : M.wp allowed p Q s) (h : ∀ value s', Q value s' → R value s') :
    M.wp allowed p R s := by
  induction p generalizing s with
  | ret value => exact h value s hwp
  | call op next ih =>
    intro c resp s' hc hexec
    exact ih resp (hwp c resp s' hc hexec)

/-- **Sequencing rule.** -/
theorem wp_seq {Q : β → State → Prop} (hp : M.wp allowed p R s)
    (hf : ∀ a s', R a s' → M.wp allowed (f a) Q s') : M.wp allowed (p >>= f) Q s :=
  (wp_bind p f Q s).mpr (wp_mono hp hf)

/-- The sequencing rule for fallible programs. -/
theorem wp_seqE {p : ExceptT ε (Program Op Resp) α} {f : α → ExceptT ε (Program Op Resp) β}
    {R : Except ε α → State → Prop} {Q : Except ε β → State → Prop} (hp : M.wp allowed p.run R s)
    (hok : ∀ a s', R (.ok a) s' → M.wp allowed (f a).run Q s')
    (herror : ∀ e s', R (.error e) s' → Q (.error e) s') : M.wp allowed (p >>= f).run Q s := by
  rw [ExceptT.run_bind]
  refine wp_seq hp fun result s' h => ?_
  cases result with
  | ok a => exact hok a s' h
  | error e => exact herror e s' h

/-- Two weakest preconditions of one program may be joined. -/
theorem wp_and (hQ : M.wp allowed p Q s) (hR : M.wp allowed p R s) :
    M.wp allowed p (fun value s' => Q value s' ∧ R value s') s := by
  induction p generalizing s with
  | ret value => exact ⟨hQ, hR⟩
  | call op next ih =>
    intro c resp s' hc hexec
    exact ih resp (hQ c resp s' hc hexec) (hR c resp s' hc hexec)

/-- What is returned is one of the values the program may return at all. -/
theorem wp_and_yields {R : α → Prop} (hp : M.wp allowed p Q s) (hy : p.Yields R) :
    M.wp allowed p (fun a s' => Q a s' ∧ R a) s := by
  induction p generalizing s with
  | ret value => exact ⟨hp, hy⟩
  | call op next ih => exact fun c resp s' hc hexec => ih resp (hp c resp s' hc hexec) (hy resp)

theorem wp_of_yields {R : α → Prop} (hy : p.Yields R) : M.wp allowed p (fun a _ => R a) s := by
  induction p generalizing s with
  | ret value => exact hy
  | call op next ih => exact fun c resp s' _ _ => ih resp (hy resp)

/-- What every operation of a program keeps, the program keeps. -/
theorem wp_of_all
    (hop : ∀ op, allowedOp op → ∀ c resp s s', allowed c → I s → M.exec c op s = some (resp, s') → I s')
    (hp : p.All allowedOp) (hs : I s) : M.wp allowed p (fun _ s' => I s') s := by
  induction p generalizing s with
  | ret value => exact hs
  | call op next ih =>
    intro c resp s' hc hexec
    exact ih resp (hp.2 resp) (hop op hp.1 c resp s s' hc hs hexec)

theorem always_mono {J : State → Prop} (hp : M.always allowed p I s) (h : ∀ s', I s' → J s') :
    M.always allowed p J s := by
  induction p generalizing s with
  | ret value => exact h s hp
  | call op next ih =>
    exact ⟨h s hp.1, fun c resp s' hc hexec => ih resp (hp.2 c resp s' hc hexec)⟩

/-- What every operation of a program keeps holds of every state it goes through. -/
theorem always_of_all
    (hop : ∀ op, allowedOp op → ∀ c resp s s', allowed c → I s → M.exec c op s = some (resp, s') → I s')
    (hp : p.All allowedOp) (hs : I s) : M.always allowed p I s := by
  induction p generalizing s with
  | ret value => exact hs
  | call op next ih =>
    refine ⟨hs, fun c resp s' hc hexec => ?_⟩
    exact ih resp (hp.2 resp) (hop op hp.1 c resp s s' hc hs hexec)

/-- The sequencing rule for the states a run goes through. -/
theorem always_seq (hp : M.always allowed p I s) (hwp : M.wp allowed p R s)
    (hf : ∀ a s', R a s' → I s' → M.always allowed (f a) I s') :
    M.always allowed (p >>= f) I s := by
  induction p generalizing s with
  | ret value => exact hf value s hwp hp
  | call op next ih =>
    refine ⟨hp.1, fun c resp s' hc hexec => ?_⟩
    exact ih resp (hp.2 c resp s' hc hexec) (hwp c resp s' hc hexec)

/-- The sequencing rule for fallible programs. -/
theorem always_seqE {p : ExceptT ε (Program Op Resp) α} {f : α → ExceptT ε (Program Op Resp) β}
    {R : Except ε α → State → Prop} (hp : M.always allowed p.run I s)
    (hwp : M.wp allowed p.run R s)
    (hf : ∀ a s', R (.ok a) s' → I s' → M.always allowed (f a).run I s') :
    M.always allowed (p >>= f).run I s := by
  rw [ExceptT.run_bind]
  refine always_seq hp hwp fun result s' h hs' => ?_
  cases result with
  | ok a => exact hf a s' h hs'
  | error e => exact hs'

/-- A complete run is a run cut off after its last operation. -/
theorem Returns.stops (hret : M.Returns allowed p s value s') : M.Stops allowed p s s' := by
  induction p generalizing s with
  | ret v => exact hret.2
  | call op next ih =>
    obtain ⟨c, resp, s₁, hc, hexec, hret⟩ := hret
    exact .inr ⟨c, resp, s₁, hc, hexec, ih resp hret⟩

/-! ## One run after the other -/

section Serial

variable {Job : Type}

variable (M) in

variable {code : Job → Program Op Resp α} {fits : Job → State → Prop} {s : State}
/-- `M.Serial code allowed fits s s'`: complete runs of jobs, one after the other and each fit for the
state it starts in, can lead from `s` to `s'`. The choices allowed may depend on the job. -/
inductive Serial (code : Job → Program Op Resp α) (allowed : Job → Choice → Prop)
    (fits : Job → State → Prop) (s : State) : State → Prop
  | start : Serial code allowed fits s s
  | step {job : Job} {value : α} {s₁ s₂ : State} (h : Serial code allowed fits s s₁)
      (hfits : fits job s₁) (hret : M.Returns (allowed job) (code job) s₁ value s₂) :
      Serial code allowed fits s s₂

/-- What every job keeps, a series of jobs keeps. -/
theorem Serial.invariant {allowed : Job → Choice → Prop} {I : State → Prop} {s' : State}
    (hs : I s)
    (hjob : ∀ job value s₁ s₂, I s₁ → fits job s₁ →
      M.Returns (allowed job) (code job) s₁ value s₂ → I s₂) (h : M.Serial code allowed fits s s') :
    I s' := by
  induction h with
  | start => exact hs
  | step _ hfits hret ih => exact hjob _ _ _ _ ih hfits hret

/-- A series of jobs can go on. -/
theorem Serial.trans {allowed : Job → Choice → Prop} {s₁ s₂ : State}
    (h₁ : M.Serial code allowed fits s s₁) (h₂ : M.Serial code allowed fits s₁ s₂) :
    M.Serial code allowed fits s s₂ := by
  induction h₂ with
  | start => exact h₁
  | step _ hfits hret ih => exact ih.step hfits hret

variable (M) in
/-- Execute jobs one after the other, each on its own choices and only where it passes a test. -/
def runAll (code : Job → Program Op Resp α) (test : Job → State → Bool) :
    List (Job × List Choice) → State → Option State
  | [], s => some s
  | (job, choices) :: jobs, s =>
    if test job s then
      match M.run (code job) choices s with
      | none => none
      | some (_, s', _) => runAll code test jobs s'
    else none

/-- An executed series whose last state passes a test leads to a state that passes it. -/
theorem exists_serial_of_runAll {allowed : Job → Choice → Prop} {test : Job → State → Bool}
    {check : State → Bool} {jobs : List (Job × List Choice)}
    (hrun : (M.runAll code test jobs s).any check = true)
    (hall : ∀ x ∈ jobs, ∀ c ∈ x.2, allowed x.1 c)
    (htest : ∀ job s, test job s = true → fits job s) :
    ∃ s', M.Serial code allowed fits s s' ∧ check s' = true := by
  induction jobs generalizing s with
  | nil => exact ⟨s, .start, by simpa [runAll] using hrun⟩
  | cons x jobs ih =>
    obtain ⟨job, choices⟩ := x
    rw [List.forall_mem_cons] at hall
    simp only [runAll] at hrun
    split at hrun
    · rename_i hpass
      cases hone : M.run (code job) choices s with
      | none =>
        rw [hone] at hrun
        cases hrun
      | some r =>
        rw [hone] at hrun
        obtain ⟨s', hserial, hcheck⟩ := ih hrun hall.2
        exact ⟨s', (Serial.start.step (htest job s hpass) (returns_of_run hone hall.1)).trans hserial,
          hcheck⟩
    · cases hrun

end Serial

end Machine

end Interleaving
