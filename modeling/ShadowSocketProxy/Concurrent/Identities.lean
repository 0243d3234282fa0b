import ShadowSocketProxy.Concurrent.Threads

/-! # Identities

A flow is created under an identity that holds the generation its creator drew. As long as the counter
has not gone through its 32 bits, no identity is used twice, in whatever order the classifiers draw and
insert. The other invariants of the interleaved system rest on this. -/

namespace ShadowSocketProxy.Concurrent

open Interleaving Bpf ControlService
open Alone (keyOf)
open Multiset (countP_cons mem_cons mem_cons_of_mem mem_cons_self)

/-- A record was created under the identity. -/
def Used (key : FlowStateKey) (history : List SystemEvent) : Prop :=
  ∃ e ∈ history, creates key e.op e.resp = true

/-- No identity was `Used` when a record was created under it. -/
def Fresh : List SystemEvent → Prop
  | [] => True
  | e :: history =>
    (∀ key, creates key e.op e.resp = true → ¬ Used key history) ∧ Fresh history

section Used

variable {key : FlowStateKey} {e : SystemEvent} {history : List SystemEvent}

theorem Used.cons (h : Used key history) : Used key (e :: history) := by
  obtain ⟨e', he', hcreates⟩ := h
  exact ⟨e', List.mem_cons_of_mem _ he', hcreates⟩

theorem used_cons_iff :
    Used key (e :: history) ↔ creates key e.op e.resp = true ∨ Used key history := by
  simp only [Used, List.mem_cons, or_and_right, exists_or, exists_eq_left]

end Used

/-- At a draw the counter has not gone through its 32 bits. -/
def Numbered (e : SystemEvent) : Prop :=
  (Flows.drawOf e.op e.resp).isSome = true → e.before.generation.toNat + 1 < 2 ^ 32

instance (e : SystemEvent) : Decidable (Numbered e) := by
  unfold Numbered
  infer_instance

/-! ## The invariant -/

/-- The generation a thread has drawn and not used yet. -/
def Phase.generation? (φ : Phase) : Option UInt32 := φ.identity?.map fun key => key.generation

/-- What has been drawn lies below the counter, and what is still to be used belongs to one thread. -/
structure Identities (s : Maps) (history : List SystemEvent) (running : Multiset (Job × Phase)) :
    Prop where
  fresh : Fresh history
  used : ∀ key, Used key history → key.generation.toNat ≤ s.generation.toNat
  drawn : ∀ x ∈ running, ∀ key, x.2.identity? = some key →
    key.generation.toNat ≤ s.generation.toNat ∧ ¬ Used key history
  distinct : ∀ generation, running.countP (fun x => x.2.generation? = some generation) ≤ 1

section Steps

variable {s s' : Maps} {history : List SystemEvent} {e : SystemEvent} {job : Job} {φ φ' : Phase}
  {rest : Multiset (Job × Phase)}

/-- `Identities` where nothing is drawn or created, and the thread keeps or gives up what it has
drawn. -/
theorem Identities.keep (hinv : Identities s history ((job, φ) ::ₘ rest))
    (hgeneration : s'.generation = s.generation) (hcreates : ∀ key, creates key e.op e.resp = false)
    (hidentity : φ'.identity? = φ.identity? ∨ φ'.identity? = none) :
    Identities s' (e :: history) ((job, φ') ::ₘ rest) := by
  have hused : ∀ key, Used key (e :: history) ↔ Used key history := fun key => by
    rw [used_cons_iff, hcreates key]
    simp
  have hmem : ∀ x ∈ (job, φ') ::ₘ rest, ∀ key, x.2.identity? = some key →
      ∃ y ∈ (job, φ) ::ₘ rest, y.2.identity? = some key := by
    intro x hx key hkey
    rcases mem_cons.mp hx with rfl | hx
    · rcases hidentity with heq | hnone
      · exact ⟨(job, φ), mem_cons_self _ _, heq ▸ hkey⟩
      · rw [hnone] at hkey
        cases hkey
    · exact ⟨x, mem_cons_of_mem hx, hkey⟩
  refine ⟨⟨fun key hkey => ?_, hinv.fresh⟩, fun key hkey => ?_, fun x hx key hkey => ?_,
    fun generation => ?_⟩
  · rw [hcreates key] at hkey
    cases hkey
  · rw [hgeneration]
    exact hinv.used key ((hused key).mp hkey)
  · obtain ⟨y, hy, hkey'⟩ := hmem x hx key hkey
    rw [hgeneration, hused key]
    exact hinv.drawn y hy key hkey'
  · refine le_trans ?_ (hinv.distinct generation)
    rw [countP_cons, countP_cons]
    rcases hidentity with heq | hnone
    · rw [Phase.generation?, heq]
      exact le_rfl
    · rw [if_neg]
      · exact Nat.le_add_right _ _
      · rw [Phase.generation?, hnone]
        rintro ⟨⟩

/-- `drawGeneration` takes the next number. -/
theorem toNat_drawGeneration_of_lt {previous : UInt64} (h : previous.toNat + 1 < 2 ^ 32) :
    (drawGeneration previous).toNat = previous.toNat + 1 := by
  have heq := Flows.toNat_drawGeneration 0 previous.toNat
  rw [UInt64.zero_add, UInt64.ofNat_toNat, UInt64.toNat_zero, Nat.zero_add, Nat.mod_eq_of_lt h,
    if_neg (by omega)] at heq
  exact heq

theorem Identities.draw (hinv : Identities s history ((job, .calm) ::ₘ rest)) {flowId : UInt64}
    (hlt : s.generation.toNat + 1 < 2 ^ 32) (hgeneration : s'.generation = s.generation + 1)
    (hcreates : ∀ key, creates key e.op e.resp = false) :
    Identities s' (e :: history)
      ((job, .drawn (stateKeyOf flowId (drawGeneration s.generation))) ::ₘ rest) := by
  have hnext : s'.generation.toNat = s.generation.toNat + 1 := by
    rw [hgeneration, UInt64.toNat_add, UInt64.toNat_one]
    omega
  have hdrawn := toNat_drawGeneration_of_lt hlt
  -- without the drawn identity nothing has changed
  have hkept : Identities s (e :: history) ((job, .calm) ::ₘ rest) :=
    hinv.keep rfl hcreates (.inl rfl)
  refine ⟨hkept.fresh, fun key hkey => ?_, fun x hx key hkey => ?_, fun generation => ?_⟩
  · have := hkept.used key hkey
    omega
  · rcases mem_cons.mp hx with rfl | hx
    · cases hkey
      refine ⟨?_, fun hused => ?_⟩
      · show (drawGeneration s.generation).toNat ≤ _
        omega
      · have hle : (drawGeneration s.generation).toNat ≤ s.generation.toNat := hkept.used _ hused
        omega
    · obtain ⟨hle, hunused⟩ := hkept.drawn x (mem_cons_of_mem hx) key hkey
      exact ⟨by omega, hunused⟩
  · rw [countP_cons]
    split
    · -- the others have drawn earlier numbers
      rename_i heq
      have hzero : rest.countP (fun x => x.2.generation? = some generation) = 0 := by
        refine Multiset.countP_eq_zero.mpr fun x hx hx' => ?_
        obtain ⟨key, hkey, hgen⟩ := Option.map_eq_some_iff.mp hx'
        have hle := (hkept.drawn x (mem_cons_of_mem hx) key hkey).1
        have heq' : drawGeneration s.generation = generation := Option.some.inj heq
        rw [hgen, ← heq', hdrawn] at hle
        omega
      omega
    · have hone := hinv.distinct generation
      rw [countP_cons, if_neg (by rintro ⟨⟩)] at hone
      exact hone

theorem Identities.insert {key : FlowStateKey}
    (hinv : Identities s history ((job, .reserved key) ::ₘ rest))
    (hgeneration : s'.generation = s.generation)
    (hcreates : ∀ key', creates key' e.op e.resp = true → key' = key) (hφ' : φ'.identity? = none) :
    Identities s' (e :: history) ((job, φ') ::ₘ rest) := by
  obtain ⟨hle, hunused⟩ := hinv.drawn _ (mem_cons_self _ _) key rfl
  have hone := hinv.distinct key.generation
  rw [countP_cons, if_pos (by rfl)] at hone
  refine ⟨⟨fun key' hkey' => ?_, hinv.fresh⟩, fun key' hkey' => ?_, fun x hx key' hkey' => ?_,
    fun generation => ?_⟩
  · rw [hcreates key' hkey']
    exact hunused
  · rw [hgeneration]
    rcases used_cons_iff.mp hkey' with hnew | hold
    · rw [hcreates key' hnew]
      exact hle
    · exact hinv.used key' hold
  · rcases mem_cons.mp hx with rfl | hx
    · rw [hφ'] at hkey'
      cases hkey'
    · obtain ⟨hle', hunused'⟩ := hinv.drawn x (mem_cons_of_mem hx) key' hkey'
      rw [hgeneration]
      refine ⟨hle', fun hused => ?_⟩
      rcases used_cons_iff.mp hused with hnew | hold
      · have hpos : 0 < rest.countP fun x => x.2.generation? = some key.generation := by
          refine Multiset.countP_pos.mpr ⟨x, hx, ?_⟩
          rw [Phase.generation?, hkey', hcreates key' hnew]
          rfl
        omega
      · exact hunused' hold
  · refine le_trans ?_ (hinv.distinct generation)
    rw [countP_cons, countP_cons, if_neg]
    · exact Nat.le_add_right _ _
    · rw [Phase.generation?, hφ']
      rintro ⟨⟩

/-- A `Quiet` or `Refused` operation creates no record. -/
theorem creates_eq_false_of_idle {op : Op} {resp : Resp op} (h : Quiet op ∨ Refused op resp)
    (key : FlowStateKey) : creates key op resp = false := by
  cases op
  case update m key' value flag =>
      rcases h with ⟨hm, -⟩ | h
      · cases m <;> first | rfl | exact absurd rfl hm
      · obtain rfl : resp = false := h
        cases m <;> cases flag <;> rfl
  all_goals rfl

theorem Gives.identity (h : Gives φ φ') : φ'.identity? = φ.identity? ∨ φ'.identity? = none := by
  cases h with
  | refunding => exact .inl rfl
  | vacating => exact .inr rfl

theorem identities_step {thread : Nat} {op : Op} {resp : Resp op} {c : Choice}
    (hstep : Moves job φ op resp φ') (hinv : Identities s history ((job, φ) ::ₘ rest))
    (hexec : exec c op s = some (resp, s')) (hnumbered : Numbered ⟨thread, job, c, op, resp, s⟩) :
    Identities s' (⟨thread, job, c, op, resp, s⟩ :: history) ((job, φ') ::ₘ rest) := by
  cases hstep with
  | idle h hφ =>
    refine hinv.keep (unchanged_of_idle h hexec).generation (creates_eq_false_of_idle h) ?_
    cases hφ with
    | stay => exact .inl rfl
    | leak h => exact h.identity
    | vacate => exact .inr rfl
  | learn h hφ =>
    refine hinv.keep (h.unchanged hexec).generation (creates_eq_false_of_idle (.inl h)) ?_
    cases hφ with
    | price => exact .inl rfl
    | _ => exact .inr rfl
  | draw flowId previous =>
    obtain ⟨rfl, hgeneration⟩ := Flows.exec_of_draw hexec rfl
    exact hinv.draw (hnumbered rfl) hgeneration fun _ => rfl
  | insert candidate hcreating =>
    refine hinv.insert (Flows.exec_of_no_draw hexec rfl) (fun key hkey => ?_) rfl
    simp only [creates, Bool.true_and, decide_eq_true_eq] at hkey
    exact hkey.symm
  | back h => exact hinv.keep (Flows.exec_of_no_draw hexec rfl) (fun _ => rfl) h.identity
  | take =>
    refine hinv.keep (Flows.exec_of_no_draw hexec rfl) (fun _ => rfl) ?_
    split
    · exact .inr rfl
    · exact .inl rfl
  | store | configure | pop | lose | claim =>
    exact hinv.keep (Flows.exec_of_no_draw hexec rfl) (fun _ => rfl) (.inl rfl)
  | reserve _ _ hatomic => cases hatomic
  | _ => exact hinv.keep (Flows.exec_of_no_draw hexec rfl) (fun _ => rfl) (.inr rfl)

end Steps

/-! ## Every interleaving -/

/-- The outline with `Identities` as its invariant. -/
def identities : Outline Op Resp Maps Choice Job Outcome Phase where
  inv := Identities
  permitted := Numbered
  ends _ job := Ends job
  settled _ _ _ _ := True

theorem identities_valid (config : RuntimeConfigValue) :
    identities.Valid (system Slots.split) (Maps.initial config) := by
  have hkept : identities.Kept machine Moves :=
    fun _ _ _ _ _ _ _ _ _ _ _ hstep hinv hexec hperm => identities_step hstep hinv hexec hperm
  refine hkept.valid rfl ⟨trivial, fun key h => ?_, fun x hx => absurd hx (Multiset.notMem_zero x),
    fun _ => Nat.zero_le 1⟩ (fun _ => .calm) (fun _ job => follows_code false job) ?_ ?_
    fun _ _ _ _ _ _ => trivial
  · obtain ⟨e, he, -⟩ := h
    cases he
  · intro job s history running threads hinv _ _
    refine ⟨hinv.fresh, hinv.used, fun x hx => ?_, fun generation => ?_⟩
    · rcases mem_cons.mp hx with rfl | hx
      · rintro key ⟨⟩
      · exact hinv.drawn x hx
    · rw [countP_cons, if_neg (by rintro ⟨⟩)]
      exact hinv.distinct generation
  · intro thread job φ value s history rest _ hinv
    refine ⟨⟨hinv.fresh, hinv.used, fun x hx => hinv.drawn x (mem_cons_of_mem hx),
      fun generation => ?_⟩, trivial⟩
    exact le_trans (Multiset.countP_le_of_le _ (Multiset.le_cons_self _ _)) (hinv.distinct generation)

/-- **No identity is used twice** before the counter has gone through its 32 bits. -/
theorem fresh_of_numbered {config : RuntimeConfigValue} {w : SystemWorld}
    (hreach : (system Slots.split).Reachable (World.start (Maps.initial config)) w)
    (hnumbered : ∀ e ∈ w.history, Numbered e) : Fresh w.history := by
  obtain ⟨running, hinv⟩ := (identities_valid config).inv hreach hnumbered
  exact hinv.fresh

theorem Fresh.pairwise {history : List SystemEvent} (h : Fresh history) :
    history.Pairwise fun e e' =>
      ∀ key, creates key e.op e.resp = true → creates key e'.op e'.resp = false := by
  induction history with
  | nil => exact List.Pairwise.nil
  | cons e history ih =>
    refine List.Pairwise.cons (fun e' he' key hkey => ?_) (ih h.2)
    rw [← Bool.not_eq_true]
    exact fun hkey' => h.1 key hkey ⟨e', he', hkey'⟩

/-- **No two creations share an identity**, in whatever order classifiers draw their generation and
insert their record, before the counter has gone through its 32 bits. -/
theorem creations_distinct {config : RuntimeConfigValue} {w : SystemWorld}
    (hreach : (system Slots.split).Reachable (World.start (Maps.initial config)) w)
    (hnumbered : ∀ e ∈ w.history, Numbered e) :
    w.history.Pairwise fun e e' =>
      ∀ key, creates key e.op e.resp = true → creates key e'.op e'.resp = false :=
  (fresh_of_numbered hreach hnumbered).pairwise

/-- The packets of two clients draw their generations, and insert their records the other way round. -/
def crossedSchedule : List (Action Job Choice) :=
  [.spawn (.packet sampleFrame true), .spawn (.packet sampleRival true)] ++
    List.replicate 8 (.step 0 {}) ++ List.replicate 12 (.step 1 {}) ++ List.replicate 4 (.step 0 {})

theorem creations_distinct_crossed :
    ∃ w : SystemWorld, (system Slots.split).Reachable (World.start (Maps.initial sampleConfig)) w ∧
      w.shared.size .flowState = 2 ∧ w.history.Pairwise fun e e' =>
        ∀ key, creates key e.op e.resp = true → creates key e'.op e'.resp = false := by
  have hrun : ((system Slots.split).run (World.start (Maps.initial sampleConfig)) crossedSchedule).any
      (fun w => w.shared.size .flowState = 2 && w.history.all fun e => Numbered e) = true := by
    decide +kernel
  obtain ⟨w, hreach, hcheck⟩ := Pool.exists_reachable_of_run hrun
  simp only [Bool.and_eq_true, decide_eq_true_eq, List.all_eq_true] at hcheck
  exact ⟨w, hreach, hcheck.1, creations_distinct hreach hcheck.2⟩

end ShadowSocketProxy.Concurrent
