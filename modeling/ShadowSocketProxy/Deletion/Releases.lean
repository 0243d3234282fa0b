import ShadowSocketProxy.Concurrent.Threads
import ShadowSocketProxy.Deletion.Retries
import ShadowSocketProxy.System
import Mathlib.Algebra.Order.BigOperators.Group.Finset
import Mathlib.Algebra.Ring.Int.Defs

/-! # One release for each generation

The deletions of a generation journal its release before they remove its record, and publish the release
in a queue afterwards, as often as they are tried. A reservation pops one entry of the queue and releases
a slot when it can delete the journal entry. The books below say where the release of the generation is
at any time: not yet due, in the journal, or claimed. Deletions and reservations follow the automaton of
`Concurrent.Phases`. -/

namespace ShadowSocketProxy.Retries

open Interleaving Bpf ControlService Alone
open Interleaving.Program (Follows Comes)
open Concurrent (Phase Step Unchanged)
open Multiset (mem_cons mem_cons_of_mem mem_cons_self)

/-! ## Events -/

/-- Whether an answered operation claims the journal entry of a generation. By
`Account.follows_reserveFlowSlot` a reservation then enters `release_flow_slot`, and only then. -/
def claims (key : FlowStateKey) : (op : Op) → Resp op → Bool
  | .delete .releasePending key', claimed => claimed && key' = key
  | _, _ => false

/-- Whether an answered operation publishes the release of a generation. -/
def publishes (key : FlowStateKey) : (op : Op) → Resp op → Bool
  | .hostPush key', .ok () => key' = key
  | _, _ => false

/-- How often the journal entry of a generation was claimed. -/
def claimCount (key : FlowStateKey) (history : List RetryEvent) : Nat :=
  history.countP fun e => claims key e.op e.resp

/-- Whether the release of a generation was published. -/
def published (key : FlowStateKey) (history : List RetryEvent) : Bool :=
  history.any fun e => publishes key e.op e.resp

/-- What an answered operation adds to the entries of a generation that reservations have popped and not
tried yet. -/
def takes (key : FlowStateKey) : (op : Op) → Resp op → Int
  | .releasePop, some key' => if key' = key then 1 else 0
  | .delete .releasePending key', _ => if key' = key then -1 else 0
  | _, _ => 0

/-- How many entries of `key` reservations have popped and not tried yet. -/
def inHand (key : FlowStateKey) (history : List RetryEvent) : Int :=
  (history.map fun e => takes key e.op e.resp).sum

/-- The release of a generation was published or claimed. -/
def Settled (key : FlowStateKey) (history : List RetryEvent) : Prop :=
  published key history = true ∨ 0 < claimCount key history

/-- An answer that counts for neither `claims` nor `publishes` nor `takes`. -/
def Silent (key : FlowStateKey) (op : Op) (resp : Resp op) : Prop :=
  claims key op resp = false ∧ publishes key op resp = false ∧ takes key op resp = 0

section Events

variable {key : FlowStateKey} {history : List RetryEvent} {e : RetryEvent}

theorem claimCount_cons_of_claims (h : claims key e.op e.resp = true) :
    claimCount key (e :: history) = claimCount key history + 1 :=
  List.countP_cons_of_pos h

theorem inHand_cons : inHand key (e :: history) = takes key e.op e.resp + inHand key history := by
  rw [inHand, List.map_cons, List.sum_cons]
  rfl

theorem Silent.claimCount (h : Silent key e.op e.resp) :
    claimCount key (e :: history) = Retries.claimCount key history :=
  List.countP_cons_of_neg (by rw [h.1]; decide)

theorem Silent.published (h : Silent key e.op e.resp) :
    published key (e :: history) = Retries.published key history := by
  rw [Retries.published, List.any_cons, h.2.1]
  rfl

theorem Silent.inHand (h : Silent key e.op e.resp) :
    inHand key (e :: history) = Retries.inHand key history := by
  rw [inHand_cons, h.2.2, Int.zero_add]

end Events

/-! ## Phases -/

/-- The release a reservation has popped and not tried yet. -/
def popped? : Phase → Option FlowStateKey
  | .claiming _ _ release => some release
  | _ => none

/-- The operations of a job on the generation `key`. -/
def Footprint (key : FlowStateKey) : Job → Op → Prop
  | .delete _ _, op => HostOp key op
  | .reserve, op => SlotOp op

/-- The transitions of a job on the generation `key`. -/
def Moves (key : FlowStateKey) (job : Job) (φ : Phase) (op : Op) (resp : Resp op) (φ' : Phase) : Prop :=
  Step false job.isHost φ op resp φ' ∧ Footprint key job op

/-- Where a job starts; the identity a reservation is for does not matter. -/
def first (key : FlowStateKey) : Job → Phase
  | .delete _ _ => .calm
  | .reserve => .drawn key

/-- Deletions and reservations follow the automaton of the classifiers and the host. -/
theorem follows_code {flowId : UInt64} {generation : UInt32} (job : Job) :
    Follows (Moves (stateKeyOf flowId generation) job) (fun φ _ => popped? φ = none)
      (first (stateKeyOf flowId generation) job) (job.code flowId generation) := by
  have hlast : ∀ φ : Phase, φ.isLast = true → popped? φ = none := by
    intro φ h
    cases φ with
    | claiming => cases h
    | _ => rfl
  cases job with
  | delete observed deadline =>
    refine Follows.bind ((Concurrent.follows_deleteFlow flowId generation observed deadline).and_all
      (all_deleteFlow flowId generation observed deadline)) fun φ' result hφ' => hlast φ' hφ'
  | reserve =>
    refine Follows.bind ((Concurrent.follows_reserveFlowSlot _).and_all all_reserveFlowSlot)
      fun φ' success hφ' => ?_
    cases success with
    | true =>
      obtain rfl : φ' = _ := hφ'
      exact rfl
    | false => exact hlast φ' hφ'

section Books

variable (key : FlowStateKey) (owner : Bpf.FlowIndexValue) (record : FlowStateValue)

/-- The books of a generation: `claimed` is how often its journal entry was claimed, `published` whether
its release was published, and `inHand` whether a reservation has popped it and not tried the journal
yet. -/
structure Books (s : Maps) (claimed : Nat) (published inHand : Prop) : Prop where
  /-- The record is there as it was, or gone. -/
  state : s.find .flowState key = some record ∨ s.find .flowState key = none
  /-- While the record is there, so are its indexes, and no release is under way. -/
  whole : s.find .flowState key = some record →
    (∀ t ∈ [record.original, record.target, record.reverse], s.find .flowIndex t = some owner) ∧
    key ∉ s.releases ∧ ¬ inHand ∧ claimed = 0 ∧ ¬ published
  /-- Once it is gone, the release is in the journal or claimed. -/
  gone : s.find .flowState key = none →
    (s.find .releasePending key).isSome ∧ claimed = 0 ∨ s.find .releasePending key = none ∧ claimed = 1
  /-- A published release that is still in the journal is in the queue or popped. -/
  queued : published → (s.find .releasePending key).isSome → key ∈ s.releases ∨ inHand
  /-- All indexes decode. -/
  decodable : Decodable s

/-- What a phase says. -/
def Fact (s : Maps) : Phase → Prop
  | .seen k => k = key ∧ (s.find .flowState key).isSome
  | .journaled k => k = key ∧ (s.find .flowState key).isSome ∧ (s.find .releasePending key).isSome
  | .gone k => k = key ∧ s.find .flowState key = none
  | _ => True

/-- How many running reservations have popped the release. -/
def holders (running : Multiset (Job × Phase)) : Nat :=
  running.countP fun x => popped? x.2 = some key

/-- The invariant of the deletions of one generation. -/
structure Inv (s : Maps) (history : List RetryEvent) (running : Multiset (Job × Phase)) : Prop where
  books : Books key owner record s (claimCount key history) (published key history = true)
    (0 < inHand key history)
  hands : inHand key history = holders key running
  facts : ∀ x ∈ running, Fact key s x.2
  roles : Roles Job.isHost Phase.isOwn running

/-- The outline with `Inv` as its invariant. -/
def outline : Outline Op Resp Maps Choice Job Outcome Phase where
  inv := Inv key owner record
  permitted _ := True
  ends _ _ φ _ := popped? φ = none
  settled _ _ _ _ := True

end Books

/-! ## Steps -/

section Steps

variable {key : FlowStateKey} {owner : Bpf.FlowIndexValue} {record : FlowStateValue} {s s' : Maps}
  {history : List RetryEvent} {e : RetryEvent} {job : Job} {φ φ' : Phase}
  {rest : Multiset (Job × Phase)}

theorem holders_cons :
    holders key ((job, φ) ::ₘ rest) = holders key rest + if popped? φ = some key then 1 else 0 :=
  Multiset.countP_cons _ _ _

/-- A phase of another thread keeps its `Fact` when record and journal entry stay. -/
theorem Fact.same (h : Fact key s φ) (hstate : s'.find .flowState key = s.find .flowState key)
    (hpending : s'.find .releasePending key = s.find .releasePending key) : Fact key s' φ := by
  cases φ with
  | seen | gone => simpa only [Fact, hstate] using h
  | journaled => simpa only [Fact, hstate, hpending] using h
  | _ => trivial

/-- A phase outside the deletions has no `Fact` to keep. -/
theorem Fact.of_not_own (h : φ.isOwn = false) : Fact key s φ := by
  cases φ with
  | seen | journaled | gone => cases h
  | _ => trivial

/-- A phase keeps its `Fact` once the record is gone. -/
theorem Fact.of_none (h : Fact key s φ) (hnone : s.find .flowState key = none)
    (hnone' : s'.find .flowState key = none) : Fact key s' φ := by
  cases φ with
  | gone => exact ⟨h.1, hnone'⟩
  | seen =>
    have hsome := h.2
    rw [hnone] at hsome
    cases hsome
  | journaled =>
    have hsome := h.2.1
    rw [hnone] at hsome
    cases hsome
  | _ => trivial

/-- `Inv` behind a step that moves no part of the release. -/
theorem Inv.keep (hinv : Inv key owner record s history ((job, φ) ::ₘ rest))
    (hstate : s'.find .flowState key = s.find .flowState key)
    (hpending : s'.find .releasePending key = s.find .releasePending key)
    (hindex : Same s s' .flowIndex ∨ s.find .flowState key = none ∧ Decodable s')
    (hqueue : key ∈ s'.releases ↔ key ∈ s.releases) (hsilent : Silent key e.op e.resp)
    (hhand : popped? φ' = some key ↔ popped? φ = some key) (hfact : Fact key s' φ')
    (hrole : φ'.isOwn = true → job.isHost = true) :
    Inv key owner record s' (e :: history) ((job, φ') ::ₘ rest) where
  books := by
    have hbooks := hinv.books
    rw [hsilent.claimCount, hsilent.published, hsilent.inHand]
    refine ⟨?_, ?_, ?_, ?_, ?_⟩
    · rw [hstate]
      exact hbooks.state
    · rw [hstate, hqueue]
      intro hsome
      obtain ⟨hindexes, hrest⟩ := hbooks.whole hsome
      refine ⟨fun t ht => ?_, hrest⟩
      rcases hindex with hsame | ⟨hnone, -⟩
      · rw [hsame t]
        exact hindexes t ht
      · rw [hsome] at hnone
        cases hnone
    · rw [hstate, hpending]
      exact hbooks.gone
    · rw [hpending, hqueue]
      exact hbooks.queued
    · rcases hindex with hsame | ⟨-, hdecodable⟩
      · intro t index ht
        rw [hsame t] at ht
        exact hbooks.decodable t index ht
      · exact hdecodable
  hands := by
    rw [hsilent.inHand, hinv.hands, holders_cons, holders_cons]
    simp only [hhand]
  facts x hx := by
    rcases mem_cons.mp hx with rfl | hx
    · exact hfact
    · exact (hinv.facts x (mem_cons_of_mem hx)).same hstate hpending
  roles := hinv.roles.move hrole

/-- While the record stays, `Books` are about record, indexes and queue only. -/
theorem Books.of_whole {claimed : Nat} {published inHand : Prop}
    (h : Books key owner record s claimed published inHand) (hsome : (s.find .flowState key).isSome)
    (hstate : s'.find .flowState key = s.find .flowState key) (hindex : Same s s' .flowIndex)
    (hqueue : s'.releases = s.releases) : Books key owner record s' claimed published inHand := by
  have hrecord : s.find .flowState key = some record := by
    rcases h.state with hrecord | hnone
    · exact hrecord
    · rw [hnone] at hsome
      cases hsome
  obtain ⟨hindexes, hunqueued, hrest⟩ := h.whole hrecord
  refine ⟨.inl (hstate.trans hrecord), fun _ => ⟨fun t ht => ?_, ?_, hrest⟩, fun hnone => ?_,
    fun hpublished => absurd hpublished hrest.2.2, fun t index ht => ?_⟩
  · rw [hindex t]
    exact hindexes t ht
  · rw [hqueue]
    exact hunqueued
  · rw [hstate, hrecord] at hnone
    cases hnone
  · rw [hindex t] at ht
    exact h.decodable t index ht

/-- Once the record is gone, `Books` are about journal entry and queue only. -/
theorem Books.of_gone {claimed : Nat} {published inHand : Prop} (hnone : s.find .flowState key = none)
    (hdecodable : Decodable s)
    (hgone : (s.find .releasePending key).isSome ∧ claimed = 0 ∨
      s.find .releasePending key = none ∧ claimed = 1)
    (hqueued : published → (s.find .releasePending key).isSome → key ∈ s.releases ∨ inHand) :
    Books key owner record s claimed published inHand := by
  refine ⟨.inr hnone, fun hsome => ?_, fun _ => hgone, hqueued, hdecodable⟩
  rw [hnone] at hsome
  cases hsome

/-- `Inv` behind a step of a deletion: no other thread is in a phase of deletions. -/
theorem Inv.hostStep (hinv : Inv key owner record s history ((job, φ) ::ₘ rest))
    (hhost : job.isHost = true) (hφ : popped? φ = none) (hφ' : popped? φ' = none)
    (hbooks : Books key owner record s' (claimCount key (e :: history))
      (published key (e :: history) = true) (0 < inHand key history))
    (htakes : takes key e.op e.resp = 0) (hfact : Fact key s' φ') :
    Inv key owner record s' (e :: history) ((job, φ') ::ₘ rest) where
  books := by
    rw [inHand_cons, htakes, Int.zero_add]
    exact hbooks
  hands := by
    rw [inHand_cons, htakes, Int.zero_add, hinv.hands, holders_cons, holders_cons, hφ, hφ']
  facts x hx := by
    rcases mem_cons.mp hx with rfl | hx
    · exact hfact
    · exact .of_not_own (hinv.roles.alone hhost x hx)
  roles := hinv.roles.move fun _ => hhost

/-- `Inv` behind a reservation that pops the queue. -/
theorem Inv.pop {k : FlowStateKey} {config : Option RuntimeConfigValue} {release : FlowStateKey}
    (hinv : Inv key owner record e.before history ((job, .reserving k config) ::ₘ rest))
    (hop : (⟨e.op, e.resp⟩ : Program.Answer Op Resp) = ⟨.releasePop, some release⟩)
    (hexec : exec e.choice e.op e.before = some (e.resp, s')) :
    Inv key owner record s' (e :: history) ((job, .claiming k config release) ::ₘ rest) := by
  obtain ⟨thread, job', c, op, resp, s⟩ := e
  cases hop
  simp only [exec] at hexec
  split at hexec <;> cases hexec
  rename_i queue hqueue
  by_cases hkey : release = key
  · -- the record is gone, or the release would not have been in the queue
    subst hkey
    have hbooks := hinv.books
    have hmem : release ∈ s.releases := by
      rw [hqueue]
      exact List.mem_cons_self
    have hnone : s.find .flowState release = none :=
      hbooks.state.resolve_left fun hsome => (hbooks.whole hsome).2.1 hmem
    have htakes : takes release .releasePop (some release) = 1 := if_pos rfl
    have hhands := hinv.hands
    rw [holders_cons, if_neg (by rintro ⟨⟩)] at hhands
    refine ⟨.of_gone hnone hbooks.decodable (hbooks.gone hnone) fun _ _ => .inr ?_, ?_, fun x hx => ?_,
      hinv.roles.move (by rintro ⟨⟩)⟩
    · rw [inHand_cons, htakes]
      omega
    · rw [inHand_cons, htakes, holders_cons,
        if_pos (show popped? (.claiming k config release) = some release from rfl)]
      omega
    · rcases mem_cons.mp hx with rfl | hx
      · trivial
      · exact (hinv.facts x (mem_cons_of_mem hx)).of_none hnone hnone
  · refine hinv.keep rfl rfl (.inl (Same.refl _ _)) ?_ ⟨rfl, rfl, if_neg hkey⟩ ?_ trivial (by rintro ⟨⟩)
    · rw [hqueue, List.mem_cons]
      exact ⟨.inr, fun h => h.resolve_left fun heq => hkey heq.symm⟩
    · exact iff_of_false (fun h => hkey (Option.some.inj h)) (by rintro ⟨⟩)

/-- `Inv` behind a reservation that tries the journal entry it has popped. -/
theorem Inv.claim {release : FlowStateKey} {done : Bool}
    (hinv : Inv key owner record e.before history ((job, φ) ::ₘ rest))
    (hφ : popped? φ = some release) (hφ' : popped? φ' = none) (hfact : ∀ s, Fact key s φ')
    (hrole : φ'.isOwn = false)
    (hop : (⟨e.op, e.resp⟩ : Program.Answer Op Resp) = ⟨.delete .releasePending release, done⟩)
    (hexec : exec e.choice e.op e.before = some (e.resp, s')) :
    Inv key owner record s' (e :: history) ((job, φ') ::ₘ rest) := by
  obtain ⟨thread, job', c, op, resp, s⟩ := e
  cases hop
  have hrole' : φ'.isOwn = true → job.isHost = true := fun h => by
    rw [hrole] at h
    cases h
  have hstate : s'.find .flowState key = s.find .flowState key := exec_frame hexec (by rintro ⟨⟩)
  have hindex : Same s s' .flowIndex := fun t => exec_frame hexec (by rintro ⟨⟩)
  by_cases hkey : release = key
  · subst hkey
    have hbooks := hinv.books
    have htakes : ∀ done, takes release (.delete .releasePending release) done = -1 := fun _ => if_pos rfl
    have hhands := hinv.hands
    rw [holders_cons, if_pos hφ] at hhands
    have hhand : 0 < inHand release history := by omega
    have hnone : s.find .flowState release = none :=
      hbooks.state.resolve_left fun hsome => (hbooks.whole hsome).2.2.1 hhand
    have hnone' := hstate.trans hnone
    have hdecodable : Decodable s' := fun t index ht => by
      rw [hindex t] at ht
      exact hbooks.decodable t index ht
    refine ⟨?_, ?_, fun x hx => ?_, hinv.roles.move hrole'⟩
    · rcases exec_delete hexec with ⟨rfl, rfl, hpending⟩ | ⟨rfl, rfl, hpending⟩
      · refine .of_gone hnone' hdecodable (hbooks.gone hnone) fun _ hsome => ?_
        rw [hpending] at hsome
        cases hsome
      · have hclaims : claims release (.delete .releasePending release) true = true := by simp [claims]
        have hgone := Maps.find_remove_self s .releasePending release
        refine .of_gone hnone' hdecodable (.inr ⟨hgone, ?_⟩) fun _ hsome => ?_
        · rw [claimCount_cons_of_claims hclaims]
          rcases hbooks.gone hnone with ⟨-, hzero⟩ | ⟨hnone, -⟩
          · rw [hzero]
          · rw [hnone] at hpending
            cases hpending
        · rw [hgone] at hsome
          cases hsome
    · rw [inHand_cons, htakes, holders_cons, hφ', if_neg (by rintro ⟨⟩)]
      omega
    · rcases mem_cons.mp hx with rfl | hx
      · exact hfact _
      · exact (hinv.facts x (mem_cons_of_mem hx)).of_none hnone hnone'
  · have hqueue : s'.releases = s.releases :=
      exec_releases hexec (by rintro ⟨⟩) (by rintro ⟨⟩) fun _ => by rintro ⟨⟩
    refine hinv.keep hstate (exec_frame hexec ?_) (.inl hindex) (by rw [hqueue])
      ⟨by simp [claims, hkey], rfl, if_neg hkey⟩ ?_ (hfact _) hrole'
    · rintro ⟨⟩
      exact hkey rfl
    · rw [hφ, hφ']
      exact iff_of_false (by rintro ⟨⟩) fun h => hkey (Option.some.inj h)

/-- Operations without effect on records and journal do not touch the indexes of the generation
either: what removes an index is a transition of its own. -/
theorem Footprint.not_index {op : Op} (h : Footprint key job op) (hquiet : Concurrent.Quiet op)
    (t : TupleKey) : ¬ op.MayChange .flowIndex t := by
  cases job with
  | delete =>
    cases h with
    | index h =>
      cases h with
      | remove tuple => exact fun _ => hquiet.2.2 rfl
      | get | iter => exact id
    | _ => rintro ⟨⟩
  | reserve =>
    cases h with
    | read h => cases h <;> exact id
    | claim => exact fun _ => hquiet.2 rfl
    | _ => rintro ⟨⟩

theorem silent_of_quiet {op : Op} (h : Concurrent.Quiet op) (resp : Resp op) : Silent key op resp := by
  cases op with
  | delete m k => cases m <;> first | exact ⟨rfl, rfl, rfl⟩ | exact absurd rfl h.2
  | releasePop | hostPush => exact h.elim
  | _ => exact ⟨rfl, rfl, rfl⟩

theorem silent_of_refused {op : Op} {resp : Resp op} (h : Concurrent.Refused op resp) :
    Silent key op resp := by
  cases op with
  | delete m k => cases m <;> first | exact ⟨rfl, rfl, rfl⟩ | exact absurd rfl h.2
  | releasePop =>
    obtain rfl : resp = none := h
    exact ⟨rfl, rfl, rfl⟩
  | hostPush => exact h.elim
  | _ => exact ⟨rfl, rfl, rfl⟩

/-- `Inv` behind a `Quiet` operation, to a phase that is no further with the release. -/
theorem Inv.quiet (hinv : Inv key owner record e.before history ((job, φ) ::ₘ rest))
    (hexec : exec e.choice e.op e.before = some (e.resp, s')) (hquiet : Concurrent.Quiet e.op)
    (hfoot : Footprint key job e.op) (hhand : popped? φ' = popped? φ)
    (hfact : Fact key e.before φ') (hrole : φ'.isOwn = true → job.isHost = true) :
    Inv key owner record s' (e :: history) ((job, φ') ::ₘ rest) := by
  have hunchanged := hquiet.unchanged hexec
  have hstate : s'.find .flowState key = e.before.find .flowState key := by
    rw [Maps.find, hunchanged.records]
    rfl
  have hpending : s'.find .releasePending key = e.before.find .releasePending key := by
    rw [Maps.find, hunchanged.journal]
    rfl
  exact hinv.keep hstate hpending (.inl fun t => exec_frame hexec (hfoot.not_index hquiet t))
    (by rw [hunchanged.releases]) (silent_of_quiet hquiet _) (by rw [hhand])
    (hfact.same hstate hpending) hrole

/-- **Every transition of `Moves` keeps `Inv`.** -/
theorem Inv.step (hstep : Moves key e.job φ e.op e.resp φ')
    (hinv : Inv key owner record e.before history ((e.job, φ) ::ₘ rest))
    (hexec : exec e.choice e.op e.before = some (e.resp, s')) :
    Inv key owner record s' (e :: history) ((e.job, φ') ::ₘ rest) := by
  obtain ⟨hstep, hfoot⟩ := hstep
  have hself := hinv.facts _ (mem_cons_self _ _)
  have hrole : φ'.isOwn = true → e.job.isHost = true := fun hown =>
    (hstep.host_of_isOwn hown).elim (hinv.roles.host _ (mem_cons_self _ _)) id
  obtain ⟨thread, job, c, op, resp, s⟩ := e
  cases hstep with
  | idle h hφ =>
    have hrests : popped? φ' = popped? φ ∧ Fact key s φ' := by
      cases hφ with
      | stay => exact ⟨rfl, hself⟩
      | leak h => cases h <;> exact ⟨rfl, trivial⟩
      | vacate => exact ⟨rfl, trivial⟩
    rcases h with h | h
    · exact hinv.quiet hexec h hfoot hrests.1 hrests.2 hrole
    · obtain rfl := h.eq hexec
      exact hinv.keep rfl rfl (.inl (Same.refl _ _)) Iff.rfl (silent_of_refused h) (by rw [hrests.1])
        hrests.2 hrole
  | learn h hφ =>
    refine hinv.quiet hexec h hfoot ?_ ?_ hrole
    · cases hφ <;> rfl
    · cases hφ with
      | see hhost k value =>
        obtain ⟨-, ⟨_, hresp⟩ | ⟨_, hsome, -⟩ | ⟨-, hresp⟩⟩ := exec_hostGet hexec
        · cases hresp
        · cases job with
          | reserve => cases hhost
          | delete =>
            cases hfoot with
            | getState => exact ⟨rfl, Option.isSome_of_eq_some hsome⟩
            | index h => cases h
        · cases hresp
      | miss hhost k error herror =>
        obtain ⟨-, ⟨_, hresp⟩ | ⟨_, -, hresp⟩ | ⟨hnone, -⟩⟩ := exec_hostGet hexec
        · cases hresp
          rcases herror with herror | herror <;> cases herror
        · cases hresp
        · cases job with
          | reserve => cases hhost
          | delete =>
            cases hfoot with
            | getState => exact ⟨rfl, hnone⟩
            | index h => cases h
      | _ => trivial
  | pop => exact hinv.pop rfl hexec
  | lose => exact hinv.claim rfl rfl (fun _ => trivial) rfl rfl hexec
  | claim => exact hinv.claim rfl rfl (fun _ => trivial) rfl rfl hexec
  | back hgives =>
    simp only [exec] at hexec
    split at hexec <;> cases hexec
    refine hinv.keep rfl rfl (.inl (Same.refl _ _)) Iff.rfl ⟨rfl, rfl, rfl⟩ ?_ ?_ hrole
    · cases hgives <;> exact Iff.rfl
    · cases hgives <;> trivial
  | take =>
    have hexec : exec c .activeAdd s = some (resp, s') := hexec
    cases hexec
    refine hinv.keep rfl rfl (.inl (Same.refl _ _)) Iff.rfl ⟨rfl, rfl, rfl⟩ ?_ ?_ hrole
    · split <;> exact Iff.rfl
    · split <;> trivial
  | untake =>
    have hexec : exec c .activeSub s = some (resp, s') := hexec
    cases hexec
    exact hinv.keep rfl rfl (.inl (Same.refl _ _)) Iff.rfl ⟨rfl, rfl, rfl⟩ Iff.rfl trivial hrole
  | journal hhost k =>
    obtain ⟨rfl, hsome⟩ := hself
    have hstate : s'.find .flowState k = s.find .flowState k := exec_frame hexec (by rintro ⟨⟩)
    have hbooks := hinv.books.of_whole hsome hstate (fun t => exec_frame hexec (by rintro ⟨⟩))
      (exec_releases hexec (by rintro ⟨⟩) (by rintro ⟨⟩) fun _ => by rintro ⟨⟩)
    rcases exec_hostInsert hexec with ⟨_, hresp, -⟩ | ⟨-, rfl, -⟩
    · cases hresp
    · refine hinv.hostStep hhost rfl rfl hbooks rfl ⟨rfl, by rwa [hstate], ?_⟩
      rw [Maps.find_put_self]
      rfl
  | remove hhost k =>
    obtain ⟨rfl, hsome, hjournal⟩ := hself
    have hbooks := hinv.books
    have hindex : Same s s' .flowIndex := fun t => exec_frame hexec (by rintro ⟨⟩)
    rcases exec_hostRemove hexec with ⟨_, hresp, -⟩ | ⟨-, rfl, -⟩
    · cases hresp
    · have hnone := Maps.find_remove_self s .flowState k
      have hrecord : s.find .flowState k = some record := by
        refine hbooks.state.resolve_right fun hnone => ?_
        rw [hnone] at hsome
        cases hsome
      obtain ⟨-, -, -, hclaimed, hunpublished⟩ := hbooks.whole hrecord
      refine hinv.hostStep hhost rfl rfl ?_ rfl ⟨rfl, hnone⟩
      refine .of_gone hnone (fun t index ht => ?_) (.inl ⟨?_, hclaimed⟩)
        fun hpublished => absurd hpublished hunpublished
      · rw [hindex t] at ht
        exact hbooks.decodable t index ht
      · rw [Maps.find_remove_of_ne _ _ (by decide)]
        exact hjournal
  | withdraw hhost k =>
    obtain ⟨rfl, hsome, -⟩ := hself
    have hstate : s'.find .flowState k = s.find .flowState k := exec_frame hexec (by rintro ⟨⟩)
    have hbooks := hinv.books.of_whole hsome hstate (fun t => exec_frame hexec (by rintro ⟨⟩))
      (exec_releases hexec (by rintro ⟨⟩) (by rintro ⟨⟩) fun _ => by rintro ⟨⟩)
    exact hinv.hostStep hhost rfl rfl hbooks rfl ⟨rfl, by rwa [hstate]⟩
  | unindex hhost k tuple =>
    obtain ⟨rfl, hnone⟩ := hself
    have hunchanged := Concurrent.unchanged_of_unindex hexec
    refine hinv.keep (exec_frame hexec (by rintro ⟨⟩)) (exec_frame hexec (by rintro ⟨⟩))
      (.inr ⟨hnone, fun t index ht => hinv.books.decodable t index (hunchanged.indexes t index ht)⟩)
      (by rw [hunchanged.releases]) ⟨rfl, rfl, rfl⟩ Iff.rfl ⟨rfl, ?_⟩ hrole
    exact (exec_frame hexec (by rintro ⟨⟩)).trans hnone
  | push hhost k =>
    obtain ⟨rfl, hnone⟩ := hself
    have hbooks := hinv.books
    simp only [exec, hostCall] at hexec
    split at hexec <;> cases hexec
    · exact hinv.hostStep hhost rfl rfl hbooks rfl ⟨rfl, hnone⟩
    · refine hinv.hostStep hhost rfl rfl ?_ rfl ⟨rfl, hnone⟩
      refine .of_gone hnone hbooks.decodable (hbooks.gone hnone) fun _ _ => .inl ?_
      exact List.mem_append_right _ (List.mem_singleton_self _)
  | reserve _ _ hatomic | release hatomic => cases hatomic
  | _ =>
    -- creations, stores and configurations are no operations of these jobs
    cases job with
    | delete =>
      cases hfoot with
      | index h => cases h
    | reserve =>
      cases hfoot with
      | read h => cases h

end Steps

/-! ## Late deletions -/

/-- Whether an answered operation finds no journal entry of `key`. -/
def misses (key : FlowStateKey) : (op : Op) → Resp op → Bool
  | .hostGet .releasePending key', .error .keyNotFound => key' = key
  | _, _ => false

theorem pending_of_misses {key : FlowStateKey} {op : Op} {resp : Resp op} {c : Choice} {s s' : Maps}
    (h : misses key op resp = true) (hexec : exec c op s = some (resp, s')) :
    s.find .releasePending key = none := by
  unfold misses at h
  split at h
  · obtain ⟨-, ⟨_, hresp⟩ | ⟨_, -, hresp⟩ | ⟨hnone, -⟩⟩ := exec_hostGet hexec
    · cases hresp
    · cases hresp
    · exact of_decide_eq_true h ▸ hnone
  · cases h

/-- What a `Late` call may be answered. -/
def LateAnswer (key : FlowStateKey) (a : Program.Answer Op Resp) : Prop :=
  ∃ c s s', Late key c s ∧ Decodable s ∧ exec c a.1 s = some (a.2, s')

/-- The answer `publishes` the release, or says that there is none. -/
def Settles (key : FlowStateKey) (a : Program.Answer Op Resp) : Prop :=
  publishes key a.1 a.2 = true ∨ misses key a.1 a.2 = true

section Late

variable {key : FlowStateKey} {expected : ControlService.FlowIndexValue}
  {goal : Program.Answer Op Resp → Prop}

/-- A `Late` read tells what is there. -/
theorem Late.hostGet {c : Choice} {s s' : Maps} {m : MapId} {k : m.Key} {call : String}
    (h : Late key c s) (hexec : exec c (.hostGet m k) s = some (.error (.syscall call), s')) : False := by
  simp only [exec, hostCall, h.1, Bool.false_eq_true, if_false] at hexec
  split at hexec <;> cases hexec

theorem comes_attempt {α : Type} (p : Host α) :
    (attempt p).run.Comes (LateAnswer key) goal fun r => ∀ e, r = .error e → False :=
  .of_yields (failsOnly_attempt (E := fun _ => False) p)

theorem comes_publishRelease :
    (publishRelease key).run.Comes (LateAnswer key) (Settles key) fun _ => False := by
  refine Comes.perform fun resp ⟨c, s, s', hlate, _, hexec⟩ => ?_
  obtain ⟨rfl, ⟨call, rfl⟩ | ⟨value, -, rfl⟩ | ⟨-, rfl⟩⟩ := exec_hostGet hexec
  · exact (hlate.hostGet hexec).elim
  · refine .inr (Comes.perform fun resp ⟨c, s, s', hlate, _, hexec⟩ => .inl (.inl ?_))
    have hexec : exec c (.hostPush key) s = some (resp, s') := hexec
    simp only [exec, hostCall, hlate.1, Bool.false_eq_true, if_false] at hexec
    cases hexec
    simp [publishes]
  · exact .inl (.inr (by simp [misses]))

theorem comes_finishCleanup (tuples : List TupleKey) (stateDeleted staleGeneration : Bool) :
    (finishCleanup expected key tuples stateDeleted staleGeneration).run.Comes (LateAnswer key)
      (Settles key) fun _ => False := by
  refine Comes.bindE (.of_yields (failsOnly_removeIndexes (E := fun _ => False) tuples))
    (fun _ _ => ?_) fun e h => h e rfl
  refine (comes_attempt _).bindE (fun _ _ => ?_) fun e h => h e rfl
  exact comes_publishRelease.bindE (fun _ h => h.elim) fun _ h => h

/-- `decodedIndexes` does not fail unless a call does. -/
theorem comes_decodedIndexes :
    decodedIndexes.run.Comes (LateAnswer key) goal fun r => ∃ entries, r = .ok entries := by
  refine Comes.perform fun resp ⟨c, s, s', hlate, hdecodable, hexec⟩ => .inr ?_
  have hexec : exec c (.hostIter .flowIndex) s = some (resp, s') := hexec
  simp only [exec, hostCall, hlate.1, Bool.false_eq_true, if_false] at hexec
  cases hexec
  refine .of_yields ?_
  show Program.Yields _ (decoded "flow-index:decode" ((s.tables .flowIndex).pairs.mapM _)).run
  rw [mapM_decodeFlowIndex hdecodable]
  exact ⟨_, rfl⟩

/-- **A `Late` deletion publishes the release**, or finds that there is none. -/
theorem comes_deleteFlow (flowId : UInt64) (generation : UInt32) (observed deadline : UInt64) :
    (deleteFlow flowId generation observed deadline).run.Comes
      (LateAnswer (stateKeyOf flowId generation)) (Settles (stateKeyOf flowId generation))
      fun _ => False := by
  simp only [deleteFlow, unpack_encodeFlowStateKey]
  refine Comes.perform fun resp hanswer => .inr ?_
  obtain ⟨c, s, s', hlate, -, hexec⟩ := hanswer
  obtain ⟨rfl, ⟨call, rfl⟩ | ⟨value, hsome, rfl⟩ | ⟨-, rfl⟩⟩ := exec_hostGet hexec
  · exact (hlate.hostGet hexec).elim
  · rw [hlate.2] at hsome
    cases hsome
  · refine (comes_attempt (removeKey .deleteGuard _)).bindE (fun _ _ => ?_) fun e h => h e rfl
    refine (comes_attempt (removeKey .deleteOutcome _)).bindE (fun _ _ => ?_) fun e h => h e rfl
    refine comes_decodedIndexes.bindE (fun _ _ => ?_) (by rintro e ⟨_, ⟨⟩⟩)
    exact comes_decodedIndexes.bindE (fun _ _ => comes_finishCleanup _ _ _) (by rintro e ⟨_, ⟨⟩⟩)

end Late

/-! ## Slots given back -/

/-- What a reservation has done about the release of a generation. -/
structure Account where
  /-- It has popped the release from the queue. -/
  popped : Bool := false
  /-- How often it has claimed the journal entry. -/
  claimed : Nat := 0
  /-- How often it has entered `release_flow_slot` after the pop. -/
  begun : Nat := 0
  /-- How many slots it has given back after the pop. -/
  freed : Nat := 0

namespace Account

/-- The account after one more answer: `release_flow_slot` begins with the lookup of the count, and a
swap that lowers the count gives a slot back. -/
def next (key : FlowStateKey) (account : Account) : Program.Answer Op Resp → Account
  | ⟨.releasePop, release⟩ => { account with popped := release.any fun key' => key' = key }
  | ⟨.delete .releasePending key', done⟩ =>
    { account with claimed := (done && key' = key).toNat + account.claimed }
  | ⟨.arrayLookup .activeFlows, _⟩ => { account with begun := account.popped.toNat + account.begun }
  | ⟨.activeCas expected new, done⟩ =>
    { account with freed := (account.popped && done && new + 1 = expected).toNat + account.freed }
  | _ => account

/-- A reservation that has popped a release, claimed its entry and entered `release_flow_slot`; `popped`
tells whether it is the release of the generation. -/
def entered (popped : Bool) (freed : Nat) : Account :=
  { popped, claimed := popped.toNat, begun := popped.toNat, freed }

/-- A slot is given back in `release_flow_slot` only, which is entered for a claimed entry only. -/
def Ordered (account : Account) : Prop :=
  account.freed ≤ account.begun ∧ account.begun ≤ account.claimed

/-- The transitions of accounts that stay `Ordered`. -/
def Moves (key : FlowStateKey) (account : Account) (op : Op) (resp : Resp op) (account' : Account) :
    Prop :=
  account' = account.next key ⟨op, resp⟩ ∧ account'.Ordered

variable {key : FlowStateKey} {account : Account}

theorem claimed_foldl (answers : List (Program.Answer Op Resp)) :
    (answers.foldl (next key) account).claimed =
      account.claimed + answers.countP fun a => claims key a.1 a.2 := by
  induction answers generalizing account with
  | nil => rfl
  | cons a answers ih =>
    have hclaimed : (account.next key a).claimed =
        account.claimed + if claims key a.1 a.2 then 1 else 0 := by
      obtain ⟨op, resp⟩ := a
      cases op with
      | delete m k =>
        cases m
        case releasePending =>
          simp only [claims, next, Bool.toNat, Bool.cond_eq_ite]
          exact Nat.add_comm _ _
        all_goals rfl
      | arrayLookup array => cases array <;> rfl
      | _ => rfl
    rw [List.foldl_cons, ih, hclaimed, List.countP_cons]
    omega

/-- `release_flow_slot` swaps the count once at most. -/
theorem follows_releaseFlowSlotLoop (popped : Bool) (attempts : Nat) :
    Follows (Moves key) (fun account _ => account.begun = account.claimed ∧ account.Ordered)
      (entered popped 0) (releaseFlowSlotLoop attempts) := by
  have hordered : (entered popped 0).Ordered := ⟨Nat.zero_le _, le_rfl⟩
  induction attempts with
  | zero => exact ⟨rfl, hordered⟩
  | succ attempts ih =>
    refine Follows.keep (fun _ => ⟨rfl, hordered⟩) fun current => ?_
    split
    · exact ⟨rfl, hordered⟩
    · rename_i hcurrent
      have hlowered : current - 1 + 1 = current := Nat.succ_pred_eq_of_ne_zero hcurrent
      refine Follows.perform fun swapped => ?_
      cases swapped with
      | true =>
        have hswapped : (entered popped popped.toNat).Ordered := ⟨le_rfl, le_rfl⟩
        refine ⟨_, ⟨?_, hswapped⟩, rfl, hswapped⟩
        simp [entered, next, hlowered]
      | false =>
        refine ⟨_, ⟨?_, hordered⟩, ih⟩
        simp [entered, next]

/-- **A reservation enters `release_flow_slot` for each entry it claims**, and for no other. -/
theorem follows_reserveFlowSlot :
    Follows (Moves key) (fun account _ => account.begun = account.claimed) {} reserveFlowSlot := by
  have hempty : Ordered {} := ⟨le_rfl, le_rfl⟩
  have hconsume : Follows (Moves key) (fun account _ => account.begun = account.claimed ∧ account.Ordered)
      {} consumeRelease := by
    refine Follows.perform fun release => ⟨_, ⟨rfl, hempty⟩, ?_⟩
    cases release with
    | none => exact ⟨rfl, hempty⟩
    | some release =>
      refine Follows.perform fun claimed => ⟨_, ⟨rfl, Nat.zero_le _, Nat.zero_le _⟩, ?_⟩
      cases claimed with
      | false => exact ⟨rfl, hempty⟩
      | true =>
        have hentered : (entered (decide (release = key)) 0).Ordered := ⟨Nat.zero_le _, le_rfl⟩
        refine Follows.perform fun present => ⟨entered (decide (release = key)) 0, ⟨rfl, hentered⟩, ?_⟩
        cases present with
        | true => exact follows_releaseFlowSlotLoop _ 8
        | false => exact ⟨rfl, hentered⟩
  refine Follows.keep (fun _ => ⟨rfl, hempty⟩) fun present => ?_
  refine Follows.keep (fun _ => ⟨rfl, hempty⟩) fun config => ?_
  split
  · refine hconsume.bind fun account _ ⟨hbegun, hordered⟩ => ?_
    refine Follows.keep (fun _ => ⟨rfl, hordered⟩) fun previous => ?_
    split
    · exact Follows.keep (fun _ => ⟨rfl, hordered⟩) fun _ => hbegun
    · exact hbegun
  · exact rfl

/-- Deletions do not touch the count. -/
theorem follows_code {flowId : UInt64} {generation : UInt32} (job : Job) :
    Follows (Moves key) (fun account _ => account.begun = account.claimed) {}
      (job.code flowId generation) := by
  cases job with
  | reserve => exact follows_reserveFlowSlot.bind fun _ _ h => h
  | delete observed deadline =>
    have hidle : Follows (Moves key) (fun account _ => account = {}) {}
        (deleteFlow flowId generation observed deadline).run := by
      refine Follows.of_all (fun op hop resp => ⟨?_, le_rfl, le_rfl⟩) (all_deleteFlow _ _ _ _)
      cases hop with
      | index h => cases h <;> rfl
      | _ => rfl
    exact hidle.seq fun _ => rfl

end Account

/-- The account of a thread. -/
def accountOf (key : FlowStateKey) (w : RetryWorld) (i : Nat) : Account :=
  (w.answers i).foldl (Account.next key) {}

/-- How often `release_flow_slot` was entered by reservations that had popped the release of a
generation. -/
def slotReleases (key : FlowStateKey) (w : RetryWorld) : Nat :=
  ∑ i ∈ Finset.range w.threads.length, (accountOf key w i).begun

/-- How many slots those runs of `release_flow_slot` gave back. -/
def slotsFreed (key : FlowStateKey) (w : RetryWorld) : Nat :=
  ∑ i ∈ Finset.range w.threads.length, (accountOf key w i).freed

/-! ## Every interleaving -/

/-- A flow generation whose deletion has not begun: its record and its indexes are there, and no release
of it is queued. -/
structure Established (flowId : UInt64) (generation : UInt32) (record : FlowStateValue) (s : Maps) :
    Prop where
  state : s.find .flowState (stateKeyOf flowId generation) = some record
  index : ∀ t ∈ [record.original, record.target, record.reverse],
    s.find .flowIndex t = some (indexOf flowId generation)
  unqueued : stateKeyOf flowId generation ∉ s.releases
  decodable : Decodable s

section Runs

variable {flowId : UInt64} {generation : UInt32} {record : FlowStateValue} {s₀ : Maps}
  {w : RetryWorld}

section

variable (h : Established flowId generation record s₀)

include h

theorem Established.inv :
    Inv (stateKeyOf flowId generation) (indexOf flowId generation) record s₀ [] 0 where
  books := by
    refine ⟨.inl h.state, fun _ => ⟨h.index, h.unqueued, ?_, rfl, ?_⟩, fun hnone => ?_, ?_, h.decodable⟩
    · exact Int.lt_irrefl 0
    · exact Bool.false_ne_true
    · rw [h.state] at hnone
      cases hnone
    · exact fun hpublished => absurd hpublished Bool.false_ne_true
  hands := rfl
  facts x hx := absurd hx (Multiset.notMem_zero x)
  roles := roles_zero

theorem outline_valid :
    (outline (stateKeyOf flowId generation) (indexOf flowId generation) record).Valid
      (system flowId generation) s₀ := by
  have hkept : (outline (stateKeyOf flowId generation) (indexOf flowId generation) record).Kept machine
      (Moves (stateKeyOf flowId generation)) :=
    fun thread job φ op resp φ' c s s' history rest hstep hinv hexec _ =>
      Inv.step (e := ⟨thread, job, c, op, resp, s⟩) hstep hinv hexec
  refine hkept.valid rfl h.inv (first _) (fun _ job => follows_code job) ?_ ?_ fun _ _ _ _ _ _ => trivial
  · intro job s history running threads hinv hadmits hrunning
    have hfirst : popped? (first (stateKeyOf flowId generation) job) = none := by cases job <;> rfl
    refine ⟨hinv.books, ?_, fun x hx => ?_, hinv.roles.spawn (by cases job <;> rfl) fun hhost x hx => ?_⟩
    · rw [holders_cons, hfirst, if_neg (by rintro ⟨⟩)]
      exact hinv.hands
    · rcases mem_cons.mp hx with rfl | hx
      · cases job <;> trivial
      · exact hinv.facts x hx
    · -- a deletion starts only when all others have returned
      obtain ⟨t, ht, hjob, hunfinished⟩ := hrunning x hx
      have hadmits : (!job.isHost || threads.all fun t => !t.job.isHost || t.finished) = true := hadmits
      rw [hhost, Bool.not_true, Bool.false_or, List.all_eq_true] at hadmits
      have := hadmits t ht
      rw [hunfinished, Bool.or_false, hjob] at this
      exact (Bool.not_eq_true' _).mp this
  · intro thread job φ value s history rest hends hinv
    refine ⟨⟨hinv.books, ?_, fun x hx => hinv.facts x (mem_cons_of_mem hx),
      hinv.roles.retire⟩, trivial⟩
    have hhands := hinv.hands
    have hends : popped? φ = none := hends
    rw [holders_cons, hends, if_neg (by rintro ⟨⟩)] at hhands
    exact hhands

/-- `Books` in every reached world, whatever fails. -/
theorem books_of_reachable (hreach : (system flowId generation).Reachable (World.start s₀) w) :
    Books (stateKeyOf flowId generation) (indexOf flowId generation) record w.shared
      (claimCount (stateKeyOf flowId generation) w.history)
      (published (stateKeyOf flowId generation) w.history = true)
      (0 < inHand (stateKeyOf flowId generation) w.history) := by
  obtain ⟨running, hinv⟩ := (outline_valid h).inv hreach fun _ _ => trivial
  exact hinv.books

/-- `Books` before an executed operation. -/
theorem books_before
    (hreach : (system flowId generation).Reachable (World.start s₀) w) {e : RetryEvent}
    (he : e ∈ w.history) :
    ∃ earlier, earlier <:+ w.history ∧
      Books (stateKeyOf flowId generation) (indexOf flowId generation) record e.before
        (claimCount (stateKeyOf flowId generation) earlier)
        (published (stateKeyOf flowId generation) earlier = true)
        (0 < inHand (stateKeyOf flowId generation) earlier) := by
  obtain ⟨later, earlier, hsplit⟩ := List.append_of_mem he
  obtain ⟨w', hreach', rfl, hshared⟩ := hreach.before hsplit
  refine ⟨w'.history, ⟨later ++ [e], ?_⟩, hshared ▸ books_of_reachable h hreach'⟩
  rw [hsplit, List.append_assoc, List.singleton_append]

end

/-- Every `accountOf` a thread is `Ordered`, and complete once the thread has returned. -/
theorem account_ordered (hreach : (system flowId generation).Reachable (World.start s₀) w)
    (key : FlowStateKey) {i : Nat} (hi : i < w.threads.length) :
    (accountOf key w i).Ordered ∧
      (w.quiet = true → (accountOf key w i).begun = (accountOf key w i).claimed) := by
  have hthread := List.getElem?_eq_getElem hi
  obtain ⟨hordered, hrest⟩ := Follows.of_path (I := Account.Ordered) (fun _ _ _ _ h => h)
    (hreach.path hthread) (Account.follows_code w.threads[i].job) ⟨le_rfl, le_rfl⟩
  refine ⟨hordered, fun hquiet => ?_⟩
  have hfinished : w.threads[i].finished = true :=
    List.all_eq_true.mp hquiet _ (List.getElem_mem hi)
  cases hprogram : w.threads[i].program with
  | ret value =>
    rw [hprogram] at hrest
    exact hrest
  | call op next =>
    rw [Thread.finished, hprogram] at hfinished
    cases hfinished

/-- All accounts together have claimed `claimCount`. -/
theorem sum_claimed (hreach : (system flowId generation).Reachable (World.start s₀) w)
    (key : FlowStateKey) :
    ∑ i ∈ Finset.range w.threads.length, (accountOf key w i).claimed = claimCount key w.history := by
  rw [claimCount, hreach.countP_history fun a => claims key a.1 a.2]
  refine Finset.sum_congr rfl fun i _ => ?_
  rw [accountOf, Account.claimed_foldl, Nat.zero_add]

/-- Deletions are the hosts, reservations their guests. -/
theorem hosted : (system flowId generation).Hosted Job.isHost Beside where
  alone job threads hhost hadmits t ht hhost' := by
    have hadmits : (!job.isHost || threads.all fun t => !t.job.isHost || t.finished) = true := hadmits
    rw [hhost, Bool.not_true, Bool.false_or, List.all_eq_true] at hadmits
    have hidle := hadmits t ht
    rw [hhost', Bool.not_true, Bool.false_or] at hidle
    exact hidle
  guest job hguest := by
    cases job with
    | delete observed deadline => cases hguest
    | reserve =>
      exact (all_reserveFlowSlot.mono fun _ hop c s resp s' hexec => beside_slot hop hexec).bind
        fun _ => trivial

/-- The last deletion, when it was `Late`, has `Swept` the generation. -/
theorem swept_of_late (h : Established flowId generation record s₀)
    (hreach : (system flowId generation).Reachable (World.start s₀) w) {i : Nat} {job : Job}
    {outcome : Outcome} (hreturned : w.returned i = some (job, outcome)) (hhost : job.isHost = true)
    (hlast : ∀ (j : Nat) (t : RetryThread), i < j → w.threads[j]? = some t → t.job.isHost = false)
    (hlate : ∀ e ∈ w.history, e.thread = i → Late (stateKeyOf flowId generation) e.choice e.before) :
    Swept (indexOf flowId generation) (stateKeyOf flowId generation) w.shared := by
  refine Pool.Guarded.returned (Q := fun _ _ s =>
    Swept (indexOf flowId generation) (stateKeyOf flowId generation) s) Beside.refl
    (hreach.guarded hosted Beside.refl (fun _ _ _ h h' => h.trans h') ?_) hreturned hhost hlast hlate
  intro w' job' hreach' hhost'
  cases job' with
  | reserve => cases hhost'
  | delete observed deadline =>
    exact Machine.under_seq Beside.refl
      (under_deleteFlow observed deadline (books_of_reachable h hreach').decodable)
      fun result s hswept s' hrely => hswept.beside hrely

/-- A `Late` deletion has published the release, unless it was claimed before. -/
theorem settled_of_late (h : Established flowId generation record s₀)
    (hreach : (system flowId generation).Reachable (World.start s₀) w) {i : Nat}
    {observed deadline : UInt64} {outcome : Outcome}
    (hreturned : w.returned i = some (.delete observed deadline, outcome))
    (hlate : ∀ e ∈ w.history, e.thread = i → Late (stateKeyOf flowId generation) e.choice e.before) :
    Settled (stateKeyOf flowId generation) w.history := by
  have hpath := hreach.path (World.returned_eq_some_iff.mp hreturned)
  have hcomes := (comes_deleteFlow flowId generation observed deadline).bind
    (R := fun _ => False) (f := fun result => pure (Outcome.report result)) fun _ h => h.elim
  have hfair : ∀ a ∈ w.answers i, LateAnswer (stateKeyOf flowId generation) a := by
    intro a ha
    obtain ⟨e, he, hthread, rfl⟩ := World.mem_answers_iff.mp ha
    obtain ⟨s', hexec⟩ := hreach.executed e he
    obtain ⟨_, -, hbooks⟩ := books_before h hreach he
    exact ⟨e.choice, e.before, s', hlate e he hthread, hbooks.decodable, hexec⟩
  obtain ⟨a, ha, hsettles⟩ := (hcomes _ _ hpath hfair).resolve_right id
  obtain ⟨e, he, hthread, rfl⟩ := World.mem_answers_iff.mp ha
  rcases hsettles with hpublishes | hmisses
  · exact .inl (List.any_eq_true.mpr ⟨e, he, hpublishes⟩)
  · -- the record is gone and there is no journal entry: the release was claimed before
    obtain ⟨s', hexec⟩ := hreach.executed e he
    obtain ⟨earlier, hsuffix, hbooks⟩ := books_before h hreach he
    rcases hbooks.gone (hlate e he hthread).2 with ⟨hsome, -⟩ | ⟨-, hone⟩
    · rw [pending_of_misses hmisses hexec] at hsome
      cases hsome
    · have hle : claimCount (stateKeyOf flowId generation) earlier ≤
          claimCount (stateKeyOf flowId generation) w.history := hsuffix.sublist.countP_le
      exact .inr (by omega)

/-- Reservations that have returned hold no entry: `inHand` is zero. -/
theorem inHand_of_quiet (h : Established flowId generation record s₀)
    (hreach : (system flowId generation).Reachable (World.start s₀) w) (hquiet : w.quiet = true) :
    inHand (stateKeyOf flowId generation) w.history = 0 := by
  exact ((outline_valid h).inv_of_quiet hreach (fun _ _ => trivial) hquiet).hands

/-- **A generation is released once, and a deletion that is tried again repairs what failed.** In every
world reached by deletions of the generation, whose map calls may fail anywhere, and by reservations, all
interleaved: `release_flow_slot` was entered once at most by reservations that had popped the release,
and gave back no more slots than that; whenever no thread is in progress, it was entered as often as the
journal entry was claimed; while the record is there, so are its indexes; and once a deletion without
faults that began after the removal of the record has returned, nothing of the generation is left, and
its release was claimed, or it is in the journal and also in the queue or in the hand of a reservation
that is still running. -/
theorem released_once_and_repaired (h : Established flowId generation record s₀)
    (hreach : (system flowId generation).Reachable (World.start s₀) w) :
    slotReleases (stateKeyOf flowId generation) w ≤ 1 ∧
    slotsFreed (stateKeyOf flowId generation) w ≤ slotReleases (stateKeyOf flowId generation) w ∧
    claimCount (stateKeyOf flowId generation) w.history ≤ 1 ∧
    (w.shared.find .flowState (stateKeyOf flowId generation) ≠ none →
      ∀ t ∈ [record.original, record.target, record.reverse],
        w.shared.find .flowIndex t = some (indexOf flowId generation)) ∧
    (w.quiet = true → inHand (stateKeyOf flowId generation) w.history = 0 ∧
      slotReleases (stateKeyOf flowId generation) w =
        claimCount (stateKeyOf flowId generation) w.history) ∧
    ∀ i observed deadline outcome, w.returned i = some (.delete observed deadline, outcome) →
      (∀ e ∈ w.history, e.thread = i → Late (stateKeyOf flowId generation) e.choice e.before) →
      (claimCount (stateKeyOf flowId generation) w.history = 1 ∨
        (w.shared.find .releasePending (stateKeyOf flowId generation)).isSome ∧
          (stateKeyOf flowId generation ∈ w.shared.releases ∨
            0 < inHand (stateKeyOf flowId generation) w.history)) ∧
      ((∀ (j : Nat) (t : RetryThread), i < j → w.threads[j]? = some t → t.job.isHost = false) →
        Swept (indexOf flowId generation) (stateKeyOf flowId generation) w.shared) := by
  have hbooks := books_of_reachable h hreach
  have hordered : ∀ i ∈ Finset.range w.threads.length, _ := fun i hi =>
    account_ordered hreach (stateKeyOf flowId generation) (Finset.mem_range.mp hi)
  have hclaimed : claimCount (stateKeyOf flowId generation) w.history ≤ 1 := by
    rcases hbooks.state with hrecord | hnone
    · have := (hbooks.whole hrecord).2.2.2.1
      omega
    · rcases hbooks.gone hnone with ⟨-, hzero⟩ | ⟨-, hone⟩ <;> omega
  refine ⟨?_, Finset.sum_le_sum fun i hi => (hordered i hi).1.1, hclaimed, fun hsome => ?_,
    fun hquiet => ⟨inHand_of_quiet h hreach hquiet, ?_⟩,
    fun i observed deadline outcome hreturned hlate => ⟨?_, fun hlast => ?_⟩⟩
  · calc slotReleases (stateKeyOf flowId generation) w
        ≤ ∑ i ∈ Finset.range w.threads.length, (accountOf (stateKeyOf flowId generation) w i).claimed :=
          Finset.sum_le_sum fun i hi => (hordered i hi).1.2
      _ = claimCount (stateKeyOf flowId generation) w.history := sum_claimed hreach _
      _ ≤ 1 := hclaimed
  · exact (hbooks.whole (hbooks.state.resolve_right hsome)).1
  · rw [← sum_claimed hreach]
    exact Finset.sum_congr rfl fun i hi => (hordered i hi).2 hquiet
  · have hsettled := settled_of_late h hreach hreturned hlate
    -- a release is settled only once the record is gone
    have hnone : w.shared.find .flowState (stateKeyOf flowId generation) = none := by
      refine hbooks.state.resolve_left fun hrecord => ?_
      obtain ⟨-, -, -, hzero, hunpublished⟩ := hbooks.whole hrecord
      rcases hsettled with hpublished | hclaimed
      · exact hunpublished hpublished
      · omega
    rcases hbooks.gone hnone with ⟨hpending, hzero⟩ | ⟨-, hone⟩
    · refine .inr ⟨hpending, hbooks.queued (hsettled.resolve_right ?_) hpending⟩
      omega
    · exact .inl hone
  · exact swept_of_late h hreach hreturned rfl hlast hlate

end Runs

/-- A deletion of the sample flow that cannot publish the release, two without faults that publish it
twice, and two reservations, of which the second pops the duplicate. -/
def sampleSchedule : List (Action Job Choice) :=
  .spawn (.delete 0 100) :: List.replicate 19 (.step 0 {}) ++ .step 0 { fault := true } ::
    List.replicate 2 (.step 0 {}) ++ .spawn (.delete 0 200) :: List.replicate 8 (.step 1 {}) ++
    .spawn (.delete 0 300) :: List.replicate 8 (.step 2 {}) ++ .spawn .reserve ::
    List.replicate 8 (.step 3 {}) ++ .spawn .reserve :: List.replicate 5 (.step 4 {})

theorem established_sample :
    Established sampleFlow.flowId sampleFlow.generation sampleFlow sampleMaps where
  state := by decide +kernel
  index := by decide +kernel
  unqueued := by decide +kernel
  decodable := by
    have hversions : ((sampleMaps.tables .flowIndex).pairs.all fun entry =>
        entry.2.version = mapAbiVersion) = true := by decide +kernel
    intro t index ht
    exact of_decide_eq_true (List.all_eq_true.mp hversions (t, index) (Table.mem_pairs_iff.mpr ht))

theorem released_once_and_repaired_sample :
    ∃ w : RetryWorld, (system sampleFlow.flowId sampleFlow.generation).Reachable
        (World.start sampleMaps) w ∧ w.shared.releases = [] ∧ w.shared.activeFlows = 2 ∧
      Swept (indexOf sampleFlow.flowId sampleFlow.generation) sampleKey w.shared ∧
      claimCount sampleKey w.history = 1 ∧ slotReleases sampleKey w = 1 ∧ slotsFreed sampleKey w = 1 := by
  have hrun : ((system sampleFlow.flowId sampleFlow.generation).run (World.start sampleMaps)
      sampleSchedule).any (fun w => w.threads.length = 5 && w.quiet && w.shared.releases = [] &&
        w.shared.activeFlows = 2 && claimCount sampleKey w.history = 1 && slotsFreed sampleKey w = 1 &&
        (w.returned 2).any (fun x => x.1 = .delete 0 300) &&
        ((List.range 5).all fun j => j ≤ 2 || (w.threads[j]?.all fun t => !t.job.isHost)) &&
        w.history.all fun e =>
          e.thread ≠ 2 || (!e.choice.fault && (e.before.find .flowState sampleKey).isNone)) = true := by
    decide +kernel
  obtain ⟨w, hreach, hcheck⟩ := Pool.exists_reachable_of_run hrun
  simp only [Bool.and_eq_true, decide_eq_true_eq, List.all_eq_true, Option.any_eq_true] at hcheck
  obtain ⟨⟨⟨⟨⟨⟨⟨⟨hlength, hquiet⟩, hempty⟩, hactive⟩, hclaimed⟩, hfreed⟩, ⟨job, outcome⟩, hreturned,
    hjob⟩, hlast⟩, hlate⟩ := hcheck
  cases hjob
  obtain ⟨-, -, -, -, hdone, hrepaired⟩ := released_once_and_repaired established_sample hreach
  obtain ⟨-, hreleases⟩ := hdone hquiet
  obtain ⟨-, hswept⟩ := hrepaired 2 0 300 outcome hreturned fun e he hthread => by
    have h := hlate e he
    rw [Bool.or_eq_true, Bool.and_eq_true, Bool.not_eq_true', Option.isNone_iff_eq_none] at h
    exact h.resolve_left (by rw [hthread]; decide)
  refine ⟨w, hreach, hempty, hactive, hswept fun j t hj ht => ?_, hclaimed, hreleases.trans hclaimed,
    hfreed⟩
  have hlt := (List.getElem?_eq_some_iff.mp ht).1
  have := hlast j (List.mem_range.mpr (by omega))
  rw [ht] at this
  simpa [Nat.not_le.mpr hj] using this

end ShadowSocketProxy.Retries
