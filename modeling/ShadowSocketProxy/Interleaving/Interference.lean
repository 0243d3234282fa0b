import ShadowSocketProxy.Interleaving.Sequential
import ShadowSocketProxy.Interleaving.Pool

/-! # Programs run under interference

Between an outline of all threads and a program run alone stands a program whose environment is known
only by what it relies on: between two operations the others may move the state along a relation.
`Machine.under` is the weakest precondition in such an environment. What holds of a program run alone
carries over when its operations do not see what the others change (`under_of_wp`), and a thread of a
pool beside which only guests run satisfies what holds of its code (`Pool.Reachable.guarded`). -/

namespace Interleaving

variable {Op : Type} {Resp : Op → Type} {State Choice Job α β : Type}

namespace Machine

variable (M : Machine Op Resp State Choice) {s : State} {p : Program Op Resp α}

/-- The weakest precondition for `Q` to hold of every value and final state, where the others may move
the state along `rely` before each operation and after the last. -/
def under (rely : State → State → Prop) (allowed : Choice → State → Prop) :
    Program Op Resp α → (α → State → Prop) → State → Prop
  | .ret value, Q, s => ∀ s', rely s s' → Q value s'
  | .call op next, Q, s =>
    ∀ s₁, rely s s₁ → ∀ c resp s₂, allowed c s₁ → M.exec c op s₁ = some (resp, s₂) →
      under rely allowed (next resp) Q s₂

variable {M} {rely : State → State → Prop} {allowed : Choice → State → Prop}

/-- The others may have moved already. -/
theorem under_of_rely (htrans : ∀ a b c, rely a b → rely b c → rely a c) {Q : α → State → Prop}
    {s' : State} (h : M.under rely allowed p Q s) (hrely : rely s s') :
    M.under rely allowed p Q s' := by
  cases p with
  | ret value => exact fun s₁ h₁ => h s₁ (htrans _ _ _ hrely h₁)
  | call op next => exact fun s₁ h₁ => h s₁ (htrans _ _ _ hrely h₁)

/-- **Sequencing rule.** -/
theorem under_seq (hrefl : ∀ s, rely s s) {f : α → Program Op Resp β} {R : α → State → Prop}
    {Q : β → State → Prop} (hp : M.under rely allowed p R s)
    (hf : ∀ a s', R a s' → M.under rely allowed (f a) Q s') :
    M.under rely allowed (p >>= f) Q s := by
  induction p generalizing s with
  | ret value => exact hf value s (hp s (hrefl s))
  | call op next ih =>
    intro s₁ h₁ c resp s₂ hc hexec
    exact ih resp (hp s₁ h₁ c resp s₂ hc hexec)

/-- The sequencing rule for fallible programs. -/
theorem under_seqE {ε : Type} (hrefl : ∀ s, rely s s) {p : ExceptT ε (Program Op Resp) α}
    {f : α → ExceptT ε (Program Op Resp) β} {R : Except ε α → State → Prop}
    {Q : Except ε β → State → Prop} (hp : M.under rely allowed p.run R s)
    (hok : ∀ a s', R (.ok a) s' → M.under rely allowed (f a).run Q s')
    (herror : ∀ e s', R (.error e) s' → ∀ s'', rely s' s'' → Q (.error e) s'') :
    M.under rely allowed (p >>= f).run Q s := by
  rw [ExceptT.run_bind]
  refine under_seq hrefl hp fun result s' h => ?_
  cases result with
  | ok a => exact hok a s' h
  | error e => exact herror e s' h

/-- An operation does not see what the others change: it answers the same before and after a move of
the others, and the results are such a move apart. -/
def Blind (M : Machine Op Resp State Choice) (rely : State → State → Prop) (op : Op) : Prop :=
  ∀ c s s₁ resp s₂, rely s s₁ → M.exec c op s₁ = some (resp, s₂) →
    ∃ s₂', M.exec c op s = some (resp, s₂') ∧ rely s₂' s₂

/-- **What holds of a program run alone holds under interference that it does not see.** -/
theorem under_of_wp (htrans : ∀ a b c, rely a b → rely b c → rely a c) {alone : Choice → Prop}
    (hallowed : ∀ c s, allowed c s → alone c) (hp : p.All (M.Blind rely)) {Q : α → State → Prop}
    (hQ : ∀ value s s', Q value s → rely s s' → Q value s') (h : M.wp alone p Q s) :
    M.under rely allowed p Q s := by
  induction p generalizing s with
  | ret value => exact fun s' hrely => hQ value s s' h hrely
  | call op next ih =>
    intro s₁ h₁ c resp s₂ hc hexec
    obtain ⟨s₂', hexec', hrely⟩ := hp.1 c s s₁ resp s₂ h₁ hexec
    exact under_of_rely htrans (ih resp (hp.2 resp) (h c resp s₂' (hallowed c s₁ hc) hexec')) hrely

/-- What every operation and the others keep, a program keeps. -/
theorem under_of_all {ok : Op → Prop} {I : State → Prop}
    (hop : ∀ op, ok op → ∀ c resp s s', I s → M.exec c op s = some (resp, s') → I s')
    (hrely : ∀ s s', I s → rely s s' → I s') (hp : p.All ok) (hs : I s) :
    M.under rely allowed p (fun _ s' => I s') s := by
  induction p generalizing s with
  | ret value => exact fun s' h => hrely s s' hs h
  | call op next ih =>
    intro s₁ h₁ c resp s₂ _ hexec
    exact ih resp (hp.2 resp) (hop op hp.1 c resp s₁ s₂ (hrely s s₁ hs h₁) hexec)

end Machine

namespace Pool

variable {P : Pool Op Resp State Choice Job α}

/-- Beside a host only guests run: a host starts when the earlier hosts have returned, and the operations
of guests move the state along `rely`. -/
structure Hosted (P : Pool Op Resp State Choice Job α) (host : Job → Bool)
    (rely : State → State → Prop) : Prop where
  /-- A host starts alone. -/
  alone : ∀ job threads, host job = true → P.admits job threads = true →
    ∀ t ∈ threads, host t.job = true → t.finished = true
  /-- Guests keep to the relation. -/
  guest : ∀ job, host job = false → (P.code job).All fun op =>
    ∀ c s resp s', P.machine.exec c op s = some (resp, s') → rely s s'

section Hosted

variable {host : Job → Bool} {rely : State → State → Prop} {allowed : Choice → State → Prop}
  {Q : Job → α → State → Prop} {w : World Op Resp State Choice Job α} {job : Job}

/-- What is known of the threads of a world with one host at a time. -/
structure Guarded (P : Pool Op Resp State Choice Job α) (host : Job → Bool)
    (rely : State → State → Prop) (allowed : Choice → State → Prop) (Q : Job → α → State → Prop)
    (w : World Op Resp State Choice Job α) : Prop where
  guest : ∀ t ∈ w.threads, host t.job = false → t.program.All fun op =>
    ∀ c s resp s', P.machine.exec c op s = some (resp, s') → rely s s'
  single : ∀ (i j : Nat) (t t' : Thread Op Resp Job α), i < j → w.threads[i]? = some t →
    w.threads[j]? = some t' →
    host t.job = true → host t'.job = true → t.finished = true
  last : ∀ (i : Nat) (t : Thread Op Resp Job α), w.threads[i]? = some t → host t.job = true →
    (∀ (j : Nat) (t' : Thread Op Resp Job α), i < j → w.threads[j]? = some t' → host t'.job = false) →
    (∀ e ∈ w.history, e.thread = i → allowed e.choice e.before) →
    P.machine.under rely allowed t.program (Q t.job) w.shared

/-- A thread of the list a job is appended to, or the new one. -/
theorem getElem?_append_singleton {γ : Type} {l : List γ} {x y : γ} {i : Nat}
    (h : (l ++ [x])[i]? = some y) : l[i]? = some y ∨ i = l.length ∧ y = x := by
  rw [List.getElem?_append] at h
  split at h
  · exact .inl h
  · rename_i hlen
    rw [List.getElem?_singleton] at h
    split at h
    · exact .inr ⟨by omega, (Option.some.inj h).symm⟩
    · cases h

theorem Guarded.spawn (hhosted : P.Hosted host rely) (hw : Guarded P host rely allowed Q w)
    (hadmits : P.admits job w.threads = true)
    (hspec : host job = true → P.machine.under rely allowed (P.code job) (Q job) w.shared) :
    Guarded P host rely allowed Q { w with threads := w.threads ++ [⟨job, P.code job⟩] } where
  guest t ht hguest := by
    rcases List.mem_append.mp ht with hold | hnew
    · exact hw.guest t hold hguest
    · obtain rfl := List.mem_singleton.mp hnew
      exact hhosted.guest job hguest
  single i j t t' hij ht ht' hhost hhost' := by
    have hj : j < w.threads.length + 1 := by
      simpa using (List.getElem?_eq_some_iff.mp ht').1
    rcases getElem?_append_singleton ht with hold | ⟨rfl, -⟩
    · rcases getElem?_append_singleton ht' with hold' | ⟨-, rfl⟩
      · exact hw.single i j t t' hij hold hold' hhost hhost'
      · exact hhosted.alone job w.threads hhost' hadmits t (List.mem_of_getElem? hold) hhost
    · omega
  last i t ht hhost hlast hallowed := by
    rcases getElem?_append_singleton ht with hold | ⟨-, rfl⟩
    · refine hw.last i t hold hhost (fun j t' hij ht' => hlast j t' hij ?_) hallowed
      have hj := (List.getElem?_eq_some_iff.mp ht').1
      rw [List.getElem?_append_left hj]
      exact ht'
    · exact hspec hhost

theorem Guarded.step (hrefl : ∀ s, rely s s) (htrans : ∀ a b c, rely a b → rely b c → rely a c)
    {j : Nat} {c : Choice} {op : Op} {next : Resp op → Program Op Resp α} {resp : Resp op}
    {s : State} (hw : Guarded P host rely allowed Q w)
    (hthread : w.threads[j]? = some ⟨job, .call op next⟩)
    (hexec : P.machine.exec c op w.shared = some (resp, s)) :
    Guarded P host rely allowed Q
      ⟨s, w.threads.set j ⟨job, next resp⟩, ⟨j, job, c, op, resp, w.shared⟩ :: w.history⟩ := by
  have hj : j < w.threads.length := (List.getElem?_eq_some_iff.mp hthread).1
  -- the job at a place is the same before and after the step
  have hsame : ∀ {i : Nat} {t : Thread Op Resp Job α},
      (w.threads.set j ⟨job, next resp⟩)[i]? = some t →
        i ≠ j ∧ w.threads[i]? = some t ∨ i = j ∧ t = ⟨job, next resp⟩ := by
    intro i t ht
    by_cases hij : i = j
    · subst hij
      rw [List.getElem?_set_self hj] at ht
      exact .inr ⟨rfl, (Option.some.inj ht).symm⟩
    · rw [List.getElem?_set_ne (Ne.symm hij)] at ht
      exact .inl ⟨hij, ht⟩
  have hold : ∀ {i : Nat} {t : Thread Op Resp Job α},
      (w.threads.set j ⟨job, next resp⟩)[i]? = some t →
        ∃ t', w.threads[i]? = some t' ∧ t'.job = t.job := by
    intro i t ht
    rcases hsame ht with ⟨-, h⟩ | ⟨rfl, rfl⟩
    · exact ⟨t, h, rfl⟩
    · exact ⟨_, hthread, rfl⟩
  refine ⟨fun t ht hguest => ?_, fun i i' t t' hlt ht ht' hhost hhost' => ?_,
    fun i t ht hhost hlast hallowed => ?_⟩
  · rcases List.mem_or_eq_of_mem_set ht with hmem | rfl
    · exact hw.guest t hmem hguest
    · exact (hw.guest _ (List.mem_of_getElem? hthread) hguest).2 resp
  · obtain ⟨t'', ht'', hjob⟩ := hold ht'
    rw [← hjob] at hhost'
    rcases hsame ht with ⟨-, h⟩ | ⟨rfl, rfl⟩
    · exact hw.single i i' t t'' hlt h ht'' hhost hhost'
    · cases hw.single i i' _ t'' hlt hthread ht'' hhost hhost'
  · have hlast' : ∀ i' t', i < i' → w.threads[i']? = some t' → host t'.job = false := by
      intro i' t' hlt ht'
      by_cases hi' : i' = j
      · subst hi'
        rw [hthread] at ht'
        cases ht'
        exact hlast i' ⟨job, next resp⟩ hlt (List.getElem?_set_self hj)
      · refine hlast i' t' hlt ?_
        rw [List.getElem?_set_ne (Ne.symm hi')]
        exact ht'
    have hallowed' : ∀ e ∈ w.history, e.thread = i → allowed e.choice e.before := fun e he =>
      hallowed e (List.mem_cons_of_mem _ he)
    rcases hsame ht with ⟨hij, h⟩ | ⟨rfl, rfl⟩
    · have hunder := hw.last i t h hhost hlast' hallowed'
      have hguest : host job = false := by
        refine Bool.eq_false_iff.mpr fun hjob => ?_
        rcases Nat.lt_or_gt_of_ne hij with hlt | hlt
        · rw [hlast' j _ hlt hthread] at hjob
          cases hjob
        · cases hw.single j i _ t hlt hthread h hjob hhost
      have hrely := (hw.guest _ (List.mem_of_getElem? hthread) hguest).1 c w.shared resp s hexec
      exact Machine.under_of_rely htrans hunder hrely
    · have hunder := hw.last i _ hthread hhost hlast' hallowed'
      exact hunder w.shared (hrefl _) c resp s (hallowed _ List.mem_cons_self rfl) hexec

/-- **The last host of a pool satisfies what holds of its code under the interference of guests**, as
long as its own operations are allowed. -/
theorem Reachable.guarded (hhosted : P.Hosted host rely) (hrefl : ∀ s, rely s s)
    (htrans : ∀ a b c, rely a b → rely b c → rely a c) {s₀ : State}
    (hspec : ∀ w job, P.Reachable (World.start s₀) w → host job = true →
      P.machine.under rely allowed (P.code job) (Q job) w.shared)
    (hreach : P.Reachable (World.start s₀) w) : Guarded P host rely allowed Q w := by
  refine (Reachable.induction (I := fun w => P.Reachable (World.start s₀) w ∧
    Guarded P host rely allowed Q w) hreach ⟨.refl _, ?_⟩ ?_).2
  · exact ⟨by simp [World.start], by simp [World.start], by simp [World.start]⟩
  · rintro w a w' ⟨hreach, hw⟩ hact
    refine ⟨hreach.step hact, ?_⟩
    cases a with
    | spawn job =>
      obtain ⟨hadmits, rfl⟩ := act_spawn_iff.mp hact
      exact hw.spawn hhosted hadmits fun hhost => hspec w job hreach hhost
    | step j c =>
      obtain ⟨job, op, next, resp, s, hthread, hexec, rfl⟩ := act_step_iff.mp hact
      exact hw.step hrefl htrans hthread hexec

/-- What a returned host has led to. -/
theorem Guarded.returned (hrefl : ∀ s, rely s s) (hw : Guarded P host rely allowed Q w) {i : Nat}
    {value : α} (hreturned : w.returned i = some (job, value)) (hhost : host job = true)
    (hlast : ∀ (j : Nat) (t : Thread Op Resp Job α), i < j → w.threads[j]? = some t →
      host t.job = false) (hallowed : ∀ e ∈ w.history, e.thread = i → allowed e.choice e.before) :
    Q job value w.shared :=
  hw.last i _ (World.returned_eq_some_iff.mp hreturned) hhost hlast hallowed w.shared (hrefl _)

end Hosted

end Pool

end Interleaving
