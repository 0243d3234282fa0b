import ShadowSocketProxy.Interleaving.Automaton
import ShadowSocketProxy.Alone.Creation
import ShadowSocketProxy.Flows.Generations

/-! # Where a thread stands

One automaton for the classifiers and the calls of the host: what a thread has drawn, reserved,
inserted, looked up or removed so far, and by which operation it goes on. The invariants of the
interleaved system are stated over these phases and are proved over the transitions, not over the
programs. -/

namespace ShadowSocketProxy.Concurrent

open Interleaving Bpf ControlService
open Alone (keyOf ownerOf tuplesOf activated)

/-! ## Phases -/

/-- Where a thread stands. -/
inductive Phase where
  /-- The thread holds nothing. -/
  | calm
  /-- A creation has drawn its identity. -/
  | drawn (key : FlowStateKey)
  /-- A reservation has read its configuration. -/
  | reserving (key : FlowStateKey) (config : Option RuntimeConfigValue)
  /-- A reservation has popped a release. -/
  | claiming (key : FlowStateKey) (config : Option RuntimeConfigValue) (release : FlowStateKey)
  /-- A reservation has claimed a release and gives its slot back. -/
  | refunding (key : FlowStateKey) (config : Option RuntimeConfigValue)
  /-- A reservation has counted a slot beyond the capacity. -/
  | overdrawn
  /-- A slot is reserved. -/
  | reserved (key : FlowStateKey)
  /-- The record is inserted, and its entries are being inserted or taken back. -/
  | creating (candidate : FlowStateValue)
  /-- A slot without a record is given back. -/
  | vacating
  /-- A packet goes on with the index of its tuple. -/
  | resolved (tuple : TupleKey) (index : Bpf.FlowIndexValue)
  /-- It has read the record it is rewritten by. -/
  | admitted (tuple : TupleKey) (record : FlowStateValue)
  /-- A deletion has read a record of the flow. -/
  | seen (key : FlowStateKey)
  /-- It has journaled the release. -/
  | journaled (key : FlowStateKey)
  /-- It has found no record, or has removed it. -/
  | gone (key : FlowStateKey)
  deriving DecidableEq

namespace Phase

/-- Whether only calls of the host go through the phase. -/
def isOwn : Phase → Bool
  | .seen _ | .journaled _ | .gone _ => true
  | _ => false

/-- Whether a thread may end in the phase. -/
def isLast : Phase → Bool
  | .calm | .drawn _ | .reserving _ _ | .resolved _ _ | .admitted _ _ | .seen _ | .gone _ => true
  | _ => false

/-- The identity a thread has drawn and not used yet. -/
def identity? : Phase → Option FlowStateKey
  | .drawn key | .reserving key _ | .claiming key _ _ | .refunding key _ | .reserved key => some key
  | _ => none

end Phase

/-! ## Operations without effect -/

/-- Operations that touch no map but the guards and outcomes of deletions and the in-flight counts,
operations on counters, and removals of an index by a packet. -/
def Quiet : Op → Prop
  | .lookup _ _ | .arrayLookup _ | .configLookup | .ktime | .activeLoad | .counterLoad _
  | .counterCas _ _ _ | .inflightAdd _ _ | .hostGet _ _ | .hostIter _ | .hostNow => True
  | .delete m _ => m ≠ .flowState ∧ m ≠ .releasePending
  | .update m _ _ _ | .hostInsert m _ _ _ | .hostRemove m _ =>
    m ≠ .flowState ∧ m ≠ .releasePending ∧ m ≠ .flowIndex
  | _ => False

/-- Answers that say that the operation had no effect. -/
def Refused : (op : Op) → Resp op → Prop
  | .update _ _ _ _, done => done = false
  | .delete m _, done => done = false ∧ m ≠ .releasePending
  | .activeCas _ _, done => done = false
  | .hostInsert _ _ _ _, result => result.isOk = false
  | .hostRemove _ _, result => result.isOk = false
  | .releasePop, release => release = none
  | _, _ => False

/-- Records, journal, queue and counters are as they were, and no index is new. -/
structure Unchanged (s s' : Maps) : Prop where
  records : s'.tables .flowState = s.tables .flowState
  journal : s'.tables .releasePending = s.tables .releasePending
  indexes : ∀ tuple index, s'.find .flowIndex tuple = some index → s.find .flowIndex tuple = some index
  activeFlows : s'.activeFlows = s.activeFlows
  releases : s'.releases = s.releases
  generation : s'.generation = s.generation
  runtimeConfig : s'.runtimeConfig = s.runtimeConfig

section Effects

variable {op : Op} {resp : Resp op} {c : Choice} {s s' : Maps}

theorem Unchanged.refl (s : Maps) : Unchanged s s := ⟨rfl, rfl, fun _ _ h => h, rfl, rfl, rfl, rfl⟩

theorem find_of_find_remove {m : MapId} {key key' : m.Key} {value : m.Val}
    (h : (s.remove m key).find m key' = some value) : s.find m key' = some value := by
  rw [Maps.find_remove] at h
  split at h
  · cases h
  · exact h

/-- A `Quiet` operation adds no index. -/
theorem Quiet.indexes (h : Quiet op) (hexec : exec c op s = some (resp, s')) {tuple : TupleKey}
    {index : Bpf.FlowIndexValue} (hindex : s'.find .flowIndex tuple = some index) :
    s.find .flowIndex tuple = some index := by
  have hsame : (∀ key, ¬ op.MayChange .flowIndex key) → s.find .flowIndex tuple = some index :=
    fun hnot => by
      rw [Maps.find, ← exec_tables hexec hnot]
      exact hindex
  cases op with
  | delete m key =>
    rcases exec_delete hexec with ⟨-, rfl, -⟩ | ⟨-, rfl, -⟩
    · exact hindex
    · cases m
      case flowIndex => exact find_of_find_remove hindex
      all_goals exact hsame fun k => by rintro ⟨⟩
  | update | hostInsert | hostRemove => exact hsame fun k hmay => h.2.2 (congrArg Sigma.fst hmay)
  | _ => exact hsame fun k => by rintro ⟨⟩

theorem Quiet.unchanged (h : Quiet op) (hexec : exec c op s = some (resp, s')) : Unchanged s s' where
  records := exec_tables hexec fun key hmay => by
    cases op with
    | update | delete | hostInsert | hostRemove => exact h.1 (congrArg Sigma.fst hmay)
    | stateStore => exact h
    | _ => cases hmay
  journal := exec_tables hexec fun key hmay => by
    cases op with
    | update | hostInsert | hostRemove => exact h.2.1 (congrArg Sigma.fst hmay)
    | delete => exact h.2 (congrArg Sigma.fst hmay)
    | reserveSlot => exact h
    | _ => cases hmay
  indexes tuple index := h.indexes hexec
  activeFlows := exec_activeFlows hexec (by cases op <;> first | rfl | exact h.elim)
  releases := exec_releases hexec (by rintro rfl; exact h) (by rintro rfl; exact h) (by
    rintro key rfl
    exact h)
  generation := Flows.exec_of_no_draw hexec (by cases op <;> first | rfl | exact h.elim)
  runtimeConfig := exec_runtimeConfig hexec (by
    rintro value rfl
    exact h)

theorem Refused.eq (h : Refused op resp) (hexec : exec c op s = some (resp, s')) : s' = s := by
  cases op with
  | update m key value flag =>
    obtain rfl : resp = false := h
    rcases exec_update hexec with ⟨-, hs⟩ | ⟨hresp, -⟩
    · exact hs
    · cases hresp
  | delete m key =>
    obtain rfl : resp = false := h.1
    rcases exec_delete hexec with ⟨-, hs, -⟩ | ⟨hresp, -⟩
    · exact hs
    · cases hresp
  | activeCas expected new =>
    obtain rfl : resp = false := h
    simp only [exec] at hexec
    split at hexec <;> cases hexec
    rfl
  | hostInsert m key value flag =>
    rcases exec_hostInsert hexec with ⟨error, -, hs⟩ | ⟨rfl, -⟩
    · exact hs
    · cases h
  | hostRemove m key =>
    rcases exec_hostRemove hexec with ⟨error, -, hs⟩ | ⟨rfl, -⟩
    · exact hs
    · cases h
  | releasePop =>
    obtain rfl : resp = none := h
    simp only [exec] at hexec
    split at hexec <;> cases hexec
    rfl
  | _ => exact h.elim

theorem unchanged_of_idle (h : Quiet op ∨ Refused op resp) (hexec : exec c op s = some (resp, s')) :
    Unchanged s s' := by
  rcases h with h | h
  · exact h.unchanged hexec
  · exact h.eq hexec ▸ Unchanged.refl s

/-- A deletion that removes an index leaves the rest `Unchanged`. -/
theorem unchanged_of_unindex {tuple : TupleKey} {result : Except MapError Unit}
    (hexec : exec c (.hostRemove .flowIndex tuple) s = some (result, s')) : Unchanged s s' := by
  rcases exec_hostRemove hexec with ⟨_, -, rfl⟩ | ⟨-, rfl, -⟩
  · exact .refl _
  · exact ⟨exec_tables hexec fun _ => by rintro ⟨⟩, exec_tables hexec fun _ => by rintro ⟨⟩,
      fun _ _ => find_of_find_remove, rfl, rfl, rfl, rfl⟩

end Effects

/-! ## Transitions -/

/-- The identity an index names. -/
def keyOfIndex (index : Bpf.FlowIndexValue) : FlowStateKey := stateKeyOf index.flowId index.generation

/-- Where a thread goes on that gives a slot back, or gives up doing so. -/
inductive Gives : Phase → Phase → Prop
  | refunding (key : FlowStateKey) (config : Option RuntimeConfigValue) :
      Gives (.refunding key config) (.reserving key config)
  | vacating : Gives .vacating .calm

/-- Where a thread stands after an operation without effect; `atomic` tells whether the slot routines
are single steps. -/
inductive Rests (atomic : Bool) : Phase → Phase → Prop
  | stay (φ : Phase) : Rests atomic φ φ
  | leak {φ φ' : Phase} (h : Gives φ φ') (hsplit : atomic = false) : Rests atomic φ φ'
  /-- A record cannot be inserted. -/
  | vacate (key : FlowStateKey) : Rests atomic (.reserved key) .vacating

/-- Where a thread stands after a read; `host` tells a call of the host from a packet. -/
inductive Learns (host : Bool) : Phase → (op : Op) → Resp op → Phase → Prop
  /-- A reservation reads its configuration. -/
  | price (key : FlowStateKey) (config : Option RuntimeConfigValue) :
      Learns host (.drawn key) .configLookup config (.reserving key config)
  /-- A packet finds the index of its tuple, -/
  | resolve (tuple : TupleKey) (index : Bpf.FlowIndexValue) :
      Learns host .calm (.lookup .flowIndex tuple) (some index) (.resolved tuple index)
  /-- and reads the record. -/
  | enter (tuple : TupleKey) (index : Bpf.FlowIndexValue) (record : FlowStateValue) :
      Learns host (.resolved tuple index) (.lookup .flowState (keyOfIndex index)) (some record)
        (.admitted tuple record)
  /-- A deletion reads the record, -/
  | see (hhost : host = true) (key : FlowStateKey) (record : FlowStateValue) :
      Learns host .calm (.hostGet .flowState key) (.ok record) (.seen key)
  /-- or finds none. -/
  | miss (hhost : host = true) (key : FlowStateKey) (error : MapError)
      (h : error = .keyNotFound ∨ error = .elementNotFound) :
      Learns host .calm (.hostGet .flowState key) (.error error) (.gone key)

/-- The transitions of a thread whose slot routines are single steps or not, and that is a call of the
host or not. -/
inductive Step (atomic host : Bool) : Phase → (op : Op) → Resp op → Phase → Prop
  | idle {φ φ' : Phase} {op : Op} {resp : Resp op} (h : Quiet op ∨ Refused op resp)
      (hφ : Rests atomic φ φ') : Step atomic host φ op resp φ'
  | learn {φ φ' : Phase} {op : Op} {resp : Resp op} (h : Quiet op) (hφ : Learns host φ op resp φ') :
      Step atomic host φ op resp φ'
  /-- A packet writes the record of its flow. -/
  | store {φ : Phase} (key : FlowStateKey) (write : StateUpdate) :
      Step atomic host φ (.stateStore key write) () φ
  /-- The host writes a configuration. -/
  | configure {φ : Phase} (value : List UInt8) (resp : Except MapError Unit) :
      Step atomic host φ (.hostSetConfig value) resp φ
  /-- A creation draws its generation. -/
  | draw (flowId : UInt64) (previous : UInt64) :
      Step atomic host .calm .generationAdd previous (.drawn (stateKeyOf flowId (drawGeneration previous)))
  /-- A reservation pops a release, -/
  | pop (key : FlowStateKey) (config : Option RuntimeConfigValue) (release : FlowStateKey)
      (hsplit : atomic = false) :
      Step atomic host (.reserving key config) .releasePop (some release) (.claiming key config release)
  /-- which another has claimed, -/
  | lose (key : FlowStateKey) (config : Option RuntimeConfigValue) (release : FlowStateKey)
      (hsplit : atomic = false) :
      Step atomic host (.claiming key config release) (.delete .releasePending release) false
        (.reserving key config)
  /-- or claims it, -/
  | claim (key : FlowStateKey) (config : Option RuntimeConfigValue) (release : FlowStateKey)
      (hsplit : atomic = false) :
      Step atomic host (.claiming key config release) (.delete .releasePending release) true
        (.refunding key config)
  /-- gives its slot back, -/
  | back {φ φ' : Phase} (h : Gives φ φ') (current : Nat) (hsplit : atomic = false) :
      Step atomic host φ (.activeCas current (current - 1)) true φ'
  /-- and counts its own, -/
  | take (key : FlowStateKey) (config : Option RuntimeConfigValue) (previous : Nat)
      (hsplit : atomic = false) :
      Step atomic host (.reserving key config) .activeAdd previous
        (if capacityReached config previous then .overdrawn else .reserved key)
  /-- which was one too many. -/
  | untake (hsplit : atomic = false) : Step atomic host .overdrawn .activeSub () .calm
  /-- A reservation in a single step. -/
  | reserve (key : FlowStateKey) (done : Bool) (hatomic : atomic = true) :
      Step atomic host (.drawn key) .reserveSlot done (if done then .reserved key else .drawn key)
  /-- A slot is given back in a single step. -/
  | release (hatomic : atomic = true) : Step atomic host .vacating .releaseSlot () .calm
  /-- A creation inserts its record, -/
  | insert (candidate : FlowStateValue) (hcreating : candidate.lifecycle = flowCreating) :
      Step atomic host (.reserved (keyOf candidate))
        (.update .flowState (keyOf candidate) candidate .noexist) true (.creating candidate)
  /-- and its indexes, -/
  | index (candidate : FlowStateValue) {tuple : TupleKey} (h : tuple ∈ tuplesOf candidate) :
      Step atomic host (.creating candidate) (.update .flowIndex tuple (ownerOf candidate) .noexist) true
        (.creating candidate)
  /-- activates its record, -/
  | activate (candidate : FlowStateValue) :
      Step atomic host (.creating candidate)
        (.update .flowState (keyOf candidate) (activated candidate) .exist) true
        (.resolved candidate.original (ownerOf candidate))
  /-- or takes it back. -/
  | takeBack (candidate : FlowStateValue) (done : Bool) :
      Step atomic host (.creating candidate) (.delete .flowState (keyOf candidate)) done .vacating
  /-- A deletion journals the release, -/
  | journal (hhost : host = true) (key : FlowStateKey) :
      Step atomic host (.seen key) (.hostInsert .releasePending key flowReleasePending .any) (.ok ())
        (.journaled key)
  /-- removes the record, -/
  | remove (hhost : host = true) (key : FlowStateKey) :
      Step atomic host (.journaled key) (.hostRemove .flowState key) (.ok ()) (.gone key)
  /-- or withdraws the release, -/
  | withdraw (hhost : host = true) (key : FlowStateKey) (result : Except MapError Unit) :
      Step atomic host (.journaled key) (.hostRemove .releasePending key) result (.seen key)
  /-- removes the indexes, -/
  | unindex (hhost : host = true) (key : FlowStateKey) (tuple : TupleKey)
      (result : Except MapError Unit) :
      Step atomic host (.gone key) (.hostRemove .flowIndex tuple) result (.gone key)
  /-- and publishes it in the end. -/
  | push (hhost : host = true) (key : FlowStateKey) (result : Except MapError Unit) :
      Step atomic host (.gone key) (.hostPush key) result (.gone key)

/-- The transitions `Step` of a job, slots operation by operation. -/
def Moves (job : Job) : Phase → (op : Op) → Resp op → Phase → Prop := Step false job.isHost

/-- The slot routines as single steps, or operation by operation. -/
def slotsOf : Bool → Slots
  | true => Slots.atomic
  | false => Slots.split

section Step

variable {atomic host : Bool} {φ φ' : Phase} {op : Op} {resp : Resp op}

theorem Step.quiet (h : Quiet op) : Step atomic host φ op resp φ := .idle (.inl h) (.stay φ)

theorem Step.refused (h : Refused op resp) : Step atomic host φ op resp φ := .idle (.inr h) (.stay φ)

/-- Only calls of the host enter the phases that are `isOwn`. -/
theorem Step.host_of_isOwn (h : Step atomic host φ op resp φ') (hown : φ'.isOwn = true) :
    φ.isOwn = true ∨ host = true := by
  cases h with
  | idle _ hφ =>
    cases hφ with
    | stay => exact .inl hown
    | leak h => cases h <;> cases hown
    | _ => cases hown
  | learn _ hφ =>
    cases hφ with
    | see hhost | miss hhost => exact .inr hhost
    | _ => cases hown
  | store | configure => exact .inl hown
  | take | reserve => split at hown <;> cases hown
  | back h => cases h <;> cases hown
  | journal hhost | remove hhost | withdraw hhost | unindex hhost | push hhost => exact .inr hhost
  | _ => cases hown

end Step

end ShadowSocketProxy.Concurrent
