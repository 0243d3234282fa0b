import ShadowSocketProxy.HostProxy.Entries
import ShadowSocketProxy.Interleaving.Automaton

/-! # The deletions of maintenance

Maintenance keeps the deletions it has yet to confirm in a table of its own, across its passes. The table
is compared with an account of the answers that maintenance gets: a flow is due from the page that
reports it expired to the answer that settles its deletion. -/

namespace ShadowSocketProxy.HostProxy

open Bpf Interleaving

/-! ## An account of the answers -/

/-- The identity under which a deletion is kept. -/
abbrev FlowRecord.identity (flow : FlowRecord) : UInt64 × UInt32 := (flow.flowId, flow.generation)

/-- What the answers say about one identity. -/
structure Account where
  /-- The flow as it was last reported expired, if its deletion has not been settled since. -/
  due : Option FlowRecord := none
  /-- The pages of the pass are over, and the deletion has not been requested since. -/
  waits : Bool := false
  /-- The flow, if its last deletion found or left nothing of it. -/
  gone : Option FlowRecord := none

abbrev Accounts : Type := UInt64 × UInt32 → Account

/-- The last flow of a page that is expired and has the identity. -/
def reported (policy : ExpiryPolicy) (flows : List FlowRecord) (identity : UInt64 × UInt32) :
    Option FlowRecord :=
  flows.reverse.find? fun flow => policy.expired flow && identity = flow.identity

/-- Whether nothing is left to retry. -/
def settles : Option (Except ProxyError FlowDeleteOutcome) → Bool
  | some (.ok outcome) => outcome ≠ .isPartial
  | _ => false

/-- Whether nothing is left of the flow. -/
def confirms : Option (Except ProxyError FlowDeleteOutcome) → Bool
  | some (.ok outcome) => outcome = .complete ∨ outcome = .alreadyAbsent
  | _ => false

/-- One more answer. -/
def Accounts.next (policy : ExpiryPolicy) (accounts : Accounts)
    (answer : Program.Answer UdpOp UdpOp.Resp) : Accounts := fun identity =>
  let account := accounts identity
  match answer with
  | ⟨.enumerateFlows, some (.ok (flows, more))⟩ =>
    { account with due := (reported policy flows identity).or account.due, waits := !more }
  | ⟨.enumerateFlows, _⟩ => { account with waits := true }
  | ⟨.deleteFlow flowId generation _, answer⟩ =>
    if identity = (flowId, generation) then
      { due := if settles answer then none else account.due
        gone := if confirms answer then account.due else none }
    else account
  | _ => account

/-- Which operation may come next: a deletion for what is due, a page when no deletion waits, and the
lookup of an association when a UDP flow of its tuple is gone. -/
def Orderly (accounts : Accounts) : UdpOp → Prop
  | .deleteFlow flowId generation observedLastUsedNs =>
    ∃ flow, (accounts (flowId, generation)).due = some flow ∧ flow.lastUsedNs = observedLastUsedNs
  | .enumerateFlows => ∀ identity flow, (accounts identity).due = some flow →
      (accounts identity).waits = false
  | .getEntry tuple => ∃ identity flow, (accounts identity).gone = some flow ∧
      flow.original.protocol = ipprotoUdp ∧ flow.synthetic = tuple
  | _ => True

/-- Operations without a condition. -/
def UdpOp.aside : UdpOp → Bool
  | .getEntry _ => false
  | .enumerateFlows => false
  | .deleteFlow _ _ _ => false
  | _ => true

variable {policy : ExpiryPolicy} {accounts : Accounts} {pending : PendingDeletes}

theorem accounted_of_aside (op : UdpOp) (hop : op.aside = true) (resp : op.Resp) :
    Program.Accounted Orderly (Accounts.next policy) accounts op resp accounts := by
  cases op <;> first | exact ⟨trivial, rfl⟩ | cases hop

/-- A program of maintenance, from the accounts so far. -/
abbrev Keeps {β : Type} (policy : ExpiryPolicy) (Q : Accounts → β → Prop) (accounts : Accounts)
    (p : Udp β) : Prop :=
  p.Follows (Program.Accounted Orderly (Accounts.next policy)) Q accounts

/-! ## The table -/

/-- The table of `PendingDeletes` holds what is due. -/
structure Noted (policy : ExpiryPolicy) (accounts : Accounts) (pending : PendingDeletes) : Prop where
  due : ∀ identity, (accounts identity).due = pending.find? identity
  expired : ∀ identity flow, pending.find? identity = some flow →
    policy.expired flow = true ∧ identity = flow.identity

theorem Noted.page (h : Noted policy accounts pending) {flows : List FlowRecord}
    {pending' : PendingDeletes} (more : Bool)
    (hpending : ∀ identity, pending'.find? identity =
      (reported policy flows identity).or (pending.find? identity)) :
    Noted policy (accounts.next policy ⟨.enumerateFlows, some (.ok (flows, more))⟩) pending' where
  due identity := by
    rw [hpending, ← h.due]
    rfl
  expired identity flow hflow := by
    rw [hpending, Option.or_eq_some_iff] at hflow
    rcases hflow with hflow | ⟨-, hflow⟩
    · simpa using List.find?_some hflow
    · exact h.expired identity flow hflow

theorem Noted.delete (h : Noted policy accounts pending) (flow : FlowRecord) (observed : UInt64)
    (answer : Option (Except ProxyError FlowDeleteOutcome)) :
    Noted policy (accounts.next policy ⟨.deleteFlow flow.flowId flow.generation observed, answer⟩)
      (if settles answer then pending.erase flow.identity else pending) where
  due identity := by
    by_cases hidentity : identity = flow.identity
    · cases hsettles : settles answer <;> simp [Accounts.next, hidentity, hsettles, h.due]
    · cases settles answer <;> simp [Accounts.next, hidentity, Table.find?_erase, h.due]
  expired identity next hnext := by
    split at hnext
    · rw [Table.find?_erase] at hnext
      split at hnext
      · cases hnext
      · exact h.expired identity next hnext
    · exact h.expired identity next hnext

/-! ## The programs -/

theorem keeps_invalidate {tuple : SocketTuple} (flowId : UInt64) (generation : UInt32)
    (h : Orderly accounts (.getEntry tuple)) :
    Keeps policy (fun accounts' _ => accounts' = accounts) accounts
      (invalidate tuple flowId generation) := by
  refine .perform fun entry => ⟨accounts, ⟨h, rfl⟩, .of_all accounted_of_aside ?_⟩
  cases entry with
  | none => trivial
  | some association => simp [Program.All, stopAssociation, UdpOp.aside]

/-- A flow of a page is noted unless a later one has its identity. -/
theorem reported_cons (flow : FlowRecord) (flows : List FlowRecord) (identity : UInt64 × UInt32) :
    (reported policy (flow :: flows) identity).or (pending.find? identity) =
      (reported policy flows identity).or
        ((if policy.expired flow then pending.insert flow.identity flow else pending).find? identity) := by
  rw [reported, reported, List.reverse_cons, List.find?_append, Option.or_assoc]
  congr 1
  by_cases hexpired : policy.expired flow = true <;> by_cases hidentity : identity = flow.identity <;>
    simp [hexpired, hidentity, Table.find?_insert]

/-- `observeFlows` notes the flows of a page one after the other. -/
theorem keeps_observeFlows (flows : List FlowRecord) (pending : PendingDeletes) :
    Keeps policy (fun accounts' noted => accounts' = accounts ∧ ∀ identity, noted.find? identity =
      (reported policy flows identity).or (pending.find? identity)) accounts
      (observeFlows policy flows pending) := by
  induction flows generalizing pending with
  | nil => exact ⟨rfl, fun _ => rfl⟩
  | cons flow flows ih =>
    have hrest := ih (if policy.expired flow then pending.insert flow.identity flow else pending)
    simp only [← reported_cons] at hrest
    rw [observeFlows]
    split
    · exact .keep (accounted_of_aside _ rfl) fun _ => hrest
    · exact hrest

/-- `scanFlows`: behind the pages of a pass the table is `Noted`. -/
theorem keeps_scanFlows (pages : Nat) (h : Noted policy accounts pending)
    (hnext : Orderly accounts .enumerateFlows) :
    Keeps policy (fun accounts' scanned => ∀ pending, scanned = some pending →
      Noted policy accounts' pending) accounts (scanFlows policy pages pending) := by
  induction pages generalizing accounts pending with
  | zero => exact fun _ heq => Option.some.inj heq ▸ h
  | succ pages ih =>
    rw [scanFlows]
    refine .perform fun page => ⟨_, ⟨hnext, rfl⟩, ?_⟩
    rcases page with _ | _ | ⟨flows, more⟩
    · rintro _ ⟨⟩
    · exact fun _ heq => Option.some.inj heq ▸ ⟨h.due, h.expired⟩
    · refine (keeps_observeFlows flows pending).bind fun _ pending' hpending => ?_
      obtain ⟨rfl, hpending⟩ := hpending
      have h' := h.page more hpending
      cases more with
      | false => exact fun _ heq => Option.some.inj heq ▸ h'
      | true => exact ih h' fun _ _ _ => rfl

/-- What a pass leaves: the table is `Noted`, and no deletion waits. -/
def Passed (policy : ExpiryPolicy) (accounts : Accounts) (rest : Option PendingDeletes) : Prop :=
  ∀ pending, rest = some pending →
    Noted policy accounts pending ∧ Orderly accounts .enumerateFlows

/-- `deleteFlows`: no deletion waits but for the flows that are left. -/
theorem keeps_deleteFlows (flows : List FlowRecord) (h : Noted policy accounts pending)
    (hflows : ∀ flow ∈ flows, pending.find? flow.identity = some flow)
    (hnodup : (flows.map FlowRecord.identity).Nodup)
    (hwaits : ∀ identity flow, (accounts identity).due = some flow →
      (accounts identity).waits = false ∨ identity ∈ flows.map FlowRecord.identity) :
    Keeps policy (Passed policy) accounts (deleteFlows flows pending) := by
  -- on the flows that are left: what has been requested may be due still, but does not wait
  induction flows generalizing accounts pending with
  | nil =>
    intro _ heq
    exact ⟨Option.some.inj heq ▸ h, fun identity flow hdue =>
      (hwaits identity flow hdue).resolve_right List.not_mem_nil⟩
  | cons flow flows ih =>
    rw [List.map_cons, List.nodup_cons] at hnodup
    have hdue := (h.due _).trans (hflows flow List.mem_cons_self)
    rw [deleteFlows]
    refine .perform fun answer => ⟨_, ⟨⟨flow, hdue, rfl⟩, rfl⟩, ?_⟩
    -- the other flows, once the answer has been dealt with
    have hrest := ih (h.delete flow flow.lastUsedNs answer) (fun next hnext => ?_) hnodup.2
      fun identity next hnext => ?_
    · split
      · rintro _ ⟨⟩
      · exact hrest
      · exact hrest
      · rename_i outcome houtcome
        have hsettles : settles (some (.ok outcome)) = true := by simpa [settles] using houtcome
        rw [if_pos hsettles] at hrest
        split
        · rename_i hudp
          refine (keeps_invalidate _ _ ⟨flow.identity, flow, ?_, hudp.1, rfl⟩).seq fun _ => hrest
          simpa [Accounts.next, confirms, hudp.2] using hdue
        · exact hrest
    · have hne : next.identity ≠ flow.identity :=
        fun heq => hnodup.1 (heq ▸ List.mem_map_of_mem hnext)
      have hfind := hflows next (List.mem_cons_of_mem _ hnext)
      split
      · rwa [Table.find?_erase, if_neg hne]
      · exact hfind
    · by_cases hidentity : identity = flow.identity
      · exact .inl (by simp [Accounts.next, hidentity])
      · simp only [Accounts.next, hidentity, if_false] at hnext ⊢
        have hbefore := hwaits identity next hnext
        rw [List.map_cons, List.mem_cons] at hbefore
        exact hbefore.imp_right fun hmem => hmem.resolve_left hidentity

theorem keeps_runMaintenance (pages passes : Nat) (h : Noted policy accounts pending)
    (hnext : Orderly accounts .enumerateFlows) :
    Keeps policy (fun _ _ => True) accounts (runMaintenance policy pages passes pending) := by
  induction passes generalizing accounts pending with
  | zero => trivial
  | succ passes ih =>
    rw [runMaintenance]
    refine (keeps_scanFlows pages h hnext).bind fun accounts' scanned hscanned => ?_
    cases scanned with
    | none => trivial
    | some pending =>
      have h := hscanned pending rfl
      -- the round goes through the values of the table, and no identity comes twice
      have hentry : ∀ entry ∈ pending.pairs, entry.2.identity = entry.1 := fun entry hentry =>
        (h.expired _ _ (Table.mem_pairs_iff.mp hentry)).2.symm
      have hidentities : (pending.pairs.map fun entry => entry.2).map FlowRecord.identity =
          pending.pairs.map fun entry => entry.1 := by
        rw [List.map_map]
        exact List.map_congr_left hentry
      refine (keeps_deleteFlows _ h (fun flow hflow => ?_)
        (hidentities ▸ pending.nodup_keys_pairs) fun identity flow hdue => .inr ?_).bind
        fun _ rest hrest => ?_
      · obtain ⟨entry, hmem, rfl⟩ := List.mem_map.mp hflow
        rw [hentry entry hmem]
        exact Table.mem_pairs_iff.mp hmem
      · rw [hidentities]
        rw [h.due, ← Table.mem_pairs_iff] at hdue
        exact List.mem_map_of_mem hdue
      · cases rest with
        | none => trivial
        | some pending => exact ih (hrest pending rfl).1 (hrest pending rfl).2

/-! ## Over every run -/

/-- The accounts before the operation `n` of a thread. -/
def accountsAt (policy : ExpiryPolicy) (w : UdpWorld) (i n : Nat) : Accounts :=
  ((w.answers i).take n).foldl (Accounts.next policy) fun _ => {}

/-- **Maintenance keeps its books.** Whatever runs beside it, each deletion it requests is of a flow that
is due, by the last use that was reported; no pass begins before all that is due has been requested; and
an association is looked up only when the deletion of a UDP flow of its tuple has been confirmed. -/
theorem maintenance_orderly {s₀ : UdpAssociations} {w : UdpWorld} {i n pages passes : Nat}
    {t : Thread UdpOp UdpOp.Resp UdpJob Unit} {op : UdpOp} {resp : op.Resp}
    (h : udpSystem.Reachable (World.start s₀) w) (ht : w.threads[i]? = some t)
    (hjob : t.job = .maintain policy pages passes) (hn : (w.answers i)[n]? = some ⟨op, resp⟩) :
    Orderly (accountsAt policy w i n) op := by
  have hpath := h.path ht
  rw [hjob] at hpath
  have hkeeps : Keeps policy (fun _ _ => True) (fun _ => {})
      (runMaintenance policy pages passes .empty) :=
    keeps_runMaintenance pages passes ⟨fun _ => rfl, fun _ _ hfind => nomatch hfind⟩
      fun _ _ hdue => nomatch hdue
  exact Program.Follows.ok_of_path hpath hkeeps hn

deriving instance DecidableEq for UdpOp, ExpiryPolicy, UdpJob

/-- A deletion leaves something, and the next pass requests it again although its page is empty. -/
theorem maintenance_orderly_retry : ∃ (w : UdpWorld) (flow : FlowRecord),
    udpSystem.Reachable (World.start (.new sampleListen 60)) w ∧
      (accountsAt ⟨60, 60, 60⟩ w 1 4 (7, 1)).due = some flow ∧ flow.lastUsedNs = 5 := by
  have hrun : (udpSystem.run (World.start (.new sampleListen 60))
      [.spawn (.datagram (sampleClient 1000) (sampleServer 1) [1]), .step 0 { flowId := 7, nowNs := 5 },
        .spawn (.maintain ⟨60, 60, 60⟩ 1 2), .step 1 { page := [sampleTuple], nowNs := 100 }, .step 1 {},
        .step 1 { leaves := true }, .step 1 {}, .step 1 {}]).any (fun w =>
        ((w.threads[1]?).any fun t => t.job = .maintain ⟨60, 60, 60⟩ 1 2) &&
          ((w.answers 1)[4]?).any fun answer => answer.1 = .deleteFlow 7 1 5) = true := by
    decide +kernel
  obtain ⟨w, hreach, hcheck⟩ := Pool.exists_reachable_of_run hrun
  simp only [Bool.and_eq_true, Option.any_eq_true, decide_eq_true_iff] at hcheck
  obtain ⟨⟨t, ht, hjob⟩, ⟨op, resp⟩, hn, rfl⟩ := hcheck
  obtain ⟨flow, hflow⟩ := maintenance_orderly hreach ht hjob hn
  exact ⟨w, flow, hreach, hflow⟩

end ShadowSocketProxy.HostProxy
