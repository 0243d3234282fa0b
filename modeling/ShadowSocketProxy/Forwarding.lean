import ShadowSocketProxy.Bpf.Rewriting
import ShadowSocketProxy.Concurrent.Rewrites
import ShadowSocketProxy.Flows.Generations

/-! # Forward packets and the proxy

What becomes of a forward packet while a usable target is configured, in every interleaving. A thread
of the packet path is followed along the answers its own operations got, so nothing has to be known
about what the other threads do in between. Where the packet goes is then read off the record it was
admitted by: the record was created in the run, and its target is the one that a configuration of the
run gave. -/

namespace ShadowSocketProxy.Forwarding

open Interleaving Bpf
open Alone (tuplesOf)
open Concurrent (Founded Numbered Stems creation keyOfIndex)
open Interleaving.Program (Answer Comes Path Yields path_bind_iff path_perform_bind_iff path_ret_iff
  all_perform_bind all_ite)

variable {op : Op} {key : FlowStateKey} {result : TcAction × List UInt8}

/-! ## Lookups of flow records -/

/-- Whether an operation looks up a flow record. -/
def readsRecord : Op → Bool
  | .lookup .flowState _ => true
  | _ => false

/-- The record an operation looks up is in the map and active. -/
def findsActive (s : Maps) : Op → Bool
  | .lookup .flowState key => (s.find .flowState key).any fun record => record.lifecycle = flowActive
  | _ => true

/-- The first answered operation that `readsRecord`. -/
def firstRecord (answers : List (Answer Op Resp)) : Option (Answer Op Resp) :=
  answers.find? fun a => readsRecord a.1

theorem readsRecord_of_readOp (h : ReadOp op) : readsRecord op = false := by
  cases h with
  | @lookup m hm key => cases m <;> first | rfl | exact absurd rfl hm
  | _ => rfl

theorem readsRecord_of_slotOp (h : SlotOp op) : readsRecord op = false := by
  cases h with
  | read h => exact readsRecord_of_readOp h
  | _ => rfl

theorem readsRecord_of_createOp {candidate : FlowStateValue} (h : CreateOp candidate op) :
    readsRecord op = false := by
  cases h with
  | slot h => exact readsRecord_of_slotOp h
  | _ => rfl

/-- Answers without a record lookup in front do not matter for `firstRecord`. -/
theorem firstRecord_append {first second : List (Answer Op Resp)}
    (h : ∀ a ∈ first, readsRecord a.1 = false) :
    firstRecord (first ++ second) = firstRecord second := by
  have hnone : first.find? (fun a => readsRecord a.1) = none :=
    List.find?_eq_none.mpr fun a ha => by simp [h a ha]
  rw [firstRecord, List.find?_append, hnone]
  rfl

/-! ## Creation -/

/-- An answer that leads a packet to a flow: its tuple is indexed to the flow, or the packet itself has
created the flow. -/
def Names (packet : PacketInfo) (index : FlowIndexValue) (a : Answer Op Resp) : Prop :=
  a = ⟨.lookup .flowIndex (packetKey packet), some index⟩ ∨
    ∃ candidate, a = ⟨.update .flowState (keyOfIndex index) candidate .noexist, true⟩ ∧
      candidate.original = packetKey packet

/-- A creation with a target ends with an index that one of the answers `Names` or with a dropped
packet. -/
def Resolves (packet : PacketInfo) (answers : List (Answer Op Resp)) : Resolution → Prop
  | .verdict action => action = .shot
  | .index index => ∃ a ∈ answers, Names packet index a

section Creation

variable (slots : Slots) {packet : PacketInfo} {answers : List (Answer Op Resp)}

/-- A program that ends so when the answers it gets are among `answers`. -/
abbrev Settles (packet : PacketInfo) (answers : List (Answer Op Resp)) (p : Prog Resolution) : Prop :=
  p.Comes (· ∈ answers) (fun _ => False) (Resolves packet answers)

theorem settles_dropCreation : Settles packet answers dropCreation :=
  .of_yields (Yields.of_bind _ fun _ => rfl)

theorem settles_resolveAgain : Settles packet answers (resolveAgain (packetKey packet)) := by
  refine .perform fun index hmem => .inr ?_
  cases index with
  | none => exact settles_dropCreation
  | some index => exact .of_yields ⟨_, hmem, .inl rfl⟩

theorem settles_insertFlow {candidate : FlowStateValue}
    (horiginal : candidate.original = packetKey packet) :
    Settles packet answers (insertFlow slots candidate) := by
  have hagain : Settles packet answers (resolveAgain candidate.original) :=
    horiginal ▸ settles_resolveAgain
  refine .perform fun inserted hmem => .inr ?_
  cases inserted with
  | false => exact .skip _ fun _ => hagain
  | true =>
    refine .skip _ fun indexed => ?_
    cases indexed with
    | false => exact .skip _ fun _ => hagain
    | true =>
      refine .perform fun activated _ => .inr ?_
      cases activated with
      | false => exact .skip _ fun _ => settles_dropCreation
      | true => exact .of_yields ⟨_, hmem, .inr ⟨candidate, rfl, horiginal⟩⟩

theorem settles_createToward (target : Address) (targetPort : UInt16) :
    Settles packet answers (createToward slots packet (packetKey packet) target targetPort) := by
  refine .perform fun scratch _ => .inr ?_
  cases scratch with
  | false => exact .of_yields rfl
  | true =>
    refine .perform fun counter _ => .inr ?_
    cases counter with
    | false => exact .of_yields rfl
    | true =>
      refine .perform fun previous _ => .inr (.perform fun now _ => .inr ?_)
      refine .skip _ fun reserved => ?_
      cases reserved with
      | false => exact settles_dropCreation
      | true => exact settles_insertFlow slots rfl

end Creation

/-- `createToward` reads no flow record. -/
theorem all_createToward {slots : Slots} (hslots : slots.Proper) (packet : PacketInfo)
    (lookupKey : TupleKey) (target : Address) (targetPort : UInt16) :
    (createToward slots packet lookupKey target targetPort).All (readsRecord · = false) := by
  simp only [createToward, all_perform_bind, all_ite]
  refine ⟨rfl, fun scratch => ⟨fun _ => ⟨rfl, fun counter => ⟨fun _ => ⟨rfl, fun previous => ⟨rfl,
    fun now => ?_⟩⟩, fun _ => trivial⟩⟩, fun _ => trivial⟩⟩
  refine (hslots.reserve.mono fun _ => readsRecord_of_slotOp).bind fun reserved => ?_
  simp only [all_ite]
  exact ⟨fun _ => (all_insertFlow hslots _).mono fun _ => readsRecord_of_createOp,
    fun _ => all_dropCreation.mono fun _ => readsRecord_of_readOp⟩

/-- The configuration lets a packet through to the proxy: the packet is not control traffic and has a
target. -/
def Usable (packet : PacketInfo) (config : RuntimeConfigValue) : Prop :=
  config.controls packet true = false ∧ (config.targetFor packet).isSome

/-- Every configuration the answered operations read is `Usable`. -/
def ReadsUsable (packet : PacketInfo) (answers : List (Answer Op Resp)) : Prop :=
  ∀ resp, ⟨.configLookup, resp⟩ ∈ answers → ∃ config, resp = some config ∧ Usable packet config

/-- `create_flow` with a `Usable` target reads no record, and `Resolves`. -/
theorem path_createFlow {slots : Slots} (hslots : slots.Proper) {packet : PacketInfo}
    {answers : List (Answer Op Resp)} {resolution : Resolution}
    (h : Path (createFlow slots packet (packetKey packet)) answers (.ret resolution))
    (husable : ReadsUsable packet answers) :
    (∀ a ∈ answers, readsRecord a.1 = false) ∧ Resolves packet answers resolution := by
  obtain ⟨target, first, second, rfl, htarget, hcreate⟩ := path_bind_iff.mp h
  obtain ⟨config, rest, rfl, hret⟩ := path_perform_bind_iff.mp htarget
  obtain ⟨rfl, hvalue⟩ := path_ret_iff.mp hret
  obtain ⟨config', rfl, -, hsome⟩ := husable config (by simp)
  obtain ⟨⟨target', port⟩, htarget'⟩ := Option.isSome_iff_exists.mp hsome
  obtain rfl : target = some (target', port) := by
    simpa [htarget'] using hvalue
  constructor
  · intro a ha
    rcases List.mem_append.mp ha with ha | ha
    · rw [List.mem_singleton.mp ha]
      rfl
    · exact hcreate.all (all_createToward hslots packet _ target' port) a ha
  · exact (settles_createToward slots target' port _ _ hcreate fun a ha =>
      List.mem_append_right _ ha).resolve_left fun ⟨_, _, hfalse⟩ => hfalse

/-! ## Admission -/

/-- The packet was redirected to the target of an active record that one of the answered operations
read. -/
def Redirects (frame : List UInt8) (packet : PacketInfo) (answers : List (Answer Op Resp))
    (result : TcAction × List UInt8) (key : FlowStateKey) (record : FlowStateValue) : Prop :=
  ⟨.lookup .flowState key, some record⟩ ∈ answers ∧ record.lifecycle = flowActive ∧
    result = (.ok, rewriteDestination frame packet record.target.destination
      record.target.destinationPort)

/-- `enter_flow_packet` admits with an active record it read. -/
theorem path_enterFlowPacket {answers : List (Answer Op Resp)} {record : FlowStateValue}
    (h : Path (enterFlowPacket key) answers (.ret (some record))) :
    ⟨.lookup .flowState key, some record⟩ ∈ answers ∧ record.lifecycle = flowActive := by
  -- Every other way through the routine returns no record.
  have hbackOut : ∀ answers, ¬ Path (backOut key) answers (.ret (some record)) := by
    intro answers hpath
    exact (nomatch hpath.yields (Q := fun r => r = none) fun _ => rfl)
  have hnone : ∀ answers, ¬ Path (pure none : Prog (Option FlowStateValue)) answers
      (.ret (some record)) := by
    intro answers hpath
    exact (nomatch hpath.yields (Q := fun r => r = none) rfl)
  obtain ⟨active, first, second, rfl, -, h₁⟩ := path_bind_iff.mp h
  split at h₁
  · exact absurd h₁ (hnone _)
  · obtain ⟨inFlight, rest₁, rfl, h₂⟩ := path_perform_bind_iff.mp h₁
    cases inFlight with
    | none => exact absurd h₂ (hnone _)
    | some count =>
      obtain ⟨_, rest₂, rfl, h₃⟩ := path_perform_bind_iff.mp h₂
      obtain ⟨active', guard, last, rfl, -, h₄⟩ := path_bind_iff.mp h₃
      split at h₄
      · exact absurd h₄ (hbackOut _)
      · obtain ⟨current, rest₃, rfl, h₅⟩ := path_perform_bind_iff.mp h₄
        cases current with
        | none => exact absurd h₅ (hbackOut _)
        | some state =>
          dsimp only at h₅
          split at h₅
          · rename_i hactive
            obtain ⟨-, heq⟩ := path_ret_iff.mp h₅
            obtain rfl : record = state := by simpa using heq
            exact ⟨by simp, hactive⟩
          · exact absurd h₅ (hbackOut _)

/-- An admission drops the packet or `Redirects` it. -/
theorem path_admitPacket {frame : List UInt8} {packet : PacketInfo}
    {answers : List (Answer Op Resp)}
    (h : Path (admitPacket frame packet true key) answers (.ret result)) :
    result.1 = .shot ∨ ∃ record, Redirects frame packet answers result key record := by
  obtain ⟨entered, first, second, rfl, henter, hrest⟩ := path_bind_iff.mp h
  cases entered with
  | none =>
    obtain ⟨-, heq⟩ := path_ret_iff.mp hrest
    obtain rfl : result = (.shot, frame) := by simpa using heq
    exact .inl rfl
  | some record =>
    obtain ⟨hmem, hactive⟩ := path_enterFlowPacket henter
    have hresult : result = (.ok, rewriteFrame frame packet true record) := by
      refine hrest.yields (Q := fun result => result = (.ok, rewriteFrame frame packet true record)) ?_
      exact fun now => Yields.of_bind (updateState key packet true now) fun _ =>
        Yields.of_bind (leaveFlowPacket key) fun _ => rfl
    exact .inr ⟨record, List.mem_append_left _ hmem, hactive, hresult⟩

/-! ## A whole run -/

/-- Whether a looked-up record is there and active. -/
def isActive (state : Option FlowStateValue) : Bool :=
  state.any fun record => record.lifecycle = flowActive

/-- What may become of a forward packet with a usable target. -/
inductive Fate (frame : List UInt8) (packet : PacketInfo) (answers : List (Answer Op Resp))
    (result : TcAction × List UInt8) : Prop
  /-- It was dropped before its flow was looked up. -/
  | dropped (hfirst : firstRecord answers = none) (hresult : result.1 = .shot)
  /-- Its flow was found active; it was dropped or redirected. -/
  | admitted (index : FlowIndexValue) (state : Option FlowStateValue)
      (hfirst : firstRecord answers = some ⟨.lookup .flowState (keyOfIndex index), state⟩)
      (hnames : ∃ a ∈ answers, Names packet index a) (hactive : isActive state = true)
      (hresult : result.1 = .shot ∨
        ∃ record, Redirects frame packet answers result (keyOfIndex index) record)
  /-- Its flow was not found active; it passed as it came. -/
  | passed (key : FlowStateKey) (state : Option FlowStateValue)
      (hfirst : firstRecord answers = some ⟨.lookup .flowState key, state⟩)
      (hactive : isActive state = false) (hresult : result = (.ok, frame))
      (hnot : ∀ key record, ¬ Redirects frame packet answers result key record)

/-- The `Fate` of a packet on a resolved flow, behind answers among which no record is read and one
`Names` the flow. -/
theorem path_processResolved {frame : List UInt8} {packet : PacketInfo} {index : FlowIndexValue}
    {first answers : List (Answer Op Resp)}
    (h : Path (processResolved frame packet true index) answers (.ret result))
    (hreads : ∀ a ∈ first, readsRecord a.1 = false) (hnames : ∃ a ∈ first, Names packet index a) :
    Fate frame packet (first ++ answers) result := by
  obtain ⟨state, rest, rfl, hrest⟩ := path_perform_bind_iff.mp h
  change Path _ _ _ at hrest
  have hfirst : firstRecord (first ++ ⟨.lookup .flowState (keyOfIndex index), state⟩ :: rest) =
      some ⟨.lookup .flowState (keyOfIndex index), state⟩ := firstRecord_append hreads
  -- A record that is not active ends the run: no other record is read.
  have hpass : isActive state = false → Path (pure (.ok, frame)) rest (.ret result) →
      Fate frame packet (first ++ ⟨.lookup .flowState (keyOfIndex index), state⟩ :: rest) result := by
    intro hactive hpath
    obtain ⟨rfl, heq⟩ := path_ret_iff.mp hpath
    obtain rfl : result = (.ok, frame) := by simpa using heq
    refine .passed (keyOfIndex index) state hfirst hactive rfl ?_
    rintro key record ⟨hmem, hrecord, -⟩
    rcases List.mem_append.mp hmem with hmem | hmem
    · exact absurd (hreads _ hmem) (by simp [readsRecord])
    · cases List.mem_singleton.mp hmem
      simp [isActive, hrecord] at hactive
  cases state with
  | none => exact hpass rfl hrest
  | some record =>
    dsimp only at hrest
    split at hrest
    · rename_i hactive
      obtain ⟨a, ha, hname⟩ := hnames
      refine .admitted index _ hfirst ⟨a, List.mem_append_left _ ha, hname⟩
        (by simp [isActive, hactive]) ?_
      rcases path_admitPacket hrest with hshot | ⟨record', hmem, hredirects⟩
      · exact .inl hshot
      · exact .inr ⟨record', List.mem_append_right _ (List.mem_cons_of_mem _ hmem), hredirects⟩
    · rename_i hactive
      exact hpass (by simp [isActive, hactive]) hrest

theorem path_processPacket {slots : Slots} (hslots : slots.Proper) {frame : List UInt8}
    {packet : PacketInfo} (hparse : parsePacket frame = some packet)
    {answers : List (Answer Op Resp)}
    (h : Path (processPacket slots frame true) answers (.ret result))
    (husable : ReadsUsable packet answers) : Fate frame packet answers result := by
  simp only [processPacket, hparse] at h
  obtain ⟨control, first, second, rfl, hcontrol, h₁⟩ := path_bind_iff.mp h
  obtain ⟨config, rest, rfl, hret⟩ := path_perform_bind_iff.mp hcontrol
  obtain ⟨rfl, hvalue⟩ := path_ret_iff.mp hret
  obtain ⟨config', rfl, hnot, -⟩ := husable config (by simp)
  obtain rfl : control = false := by simpa [hnot] using hvalue
  obtain ⟨resolution, lookups, tail, rfl, hresolve, h₂⟩ := path_bind_iff.mp h₁
  obtain ⟨index, rest, rfl, h₃⟩ := path_perform_bind_iff.mp hresolve
  -- Up to the resolution no record is read, and an index is named.
  have hlookups : (∀ a ∈ rest, readsRecord a.1 = false) ∧
      Resolves packet (⟨.lookup .flowIndex (packetKey packet), index⟩ :: rest) resolution := by
    cases index with
    | some index =>
      obtain ⟨rfl, heq⟩ := path_ret_iff.mp h₃
      obtain rfl : resolution = .index index := by simpa using heq
      exact ⟨by simp, _, List.mem_cons_self, .inl rfl⟩
    | none =>
      obtain ⟨hreads, hresolves⟩ := path_createFlow hslots h₃ fun resp hmem => husable resp
        (by simp [hmem])
      refine ⟨hreads, ?_⟩
      cases resolution with
      | verdict action => exact hresolves
      | index index =>
        obtain ⟨a, ha, hname⟩ := hresolves
        exact ⟨a, List.mem_cons_of_mem _ ha, hname⟩
  obtain ⟨hreads, hresolves⟩ := hlookups
  have hskip : ∀ a ∈ ([⟨.configLookup, some config'⟩] ++
      ⟨.lookup .flowIndex (packetKey packet), index⟩ :: rest : List (Answer Op Resp)),
      readsRecord a.1 = false := by
    simpa [readsRecord] using hreads
  rw [← List.append_assoc]
  cases resolution with
  | verdict action =>
    obtain ⟨rfl, heq⟩ := path_ret_iff.mp h₂
    obtain rfl : result = (action, frame) := by simpa using heq
    exact .dropped (firstRecord_append hskip) hresolves
  | index index' =>
    obtain ⟨a, ha, hname⟩ := hresolves
    exact path_processResolved h₂ hskip ⟨a, List.mem_append_right _ ha, hname⟩

/-! ## Targets of records -/

/-- The target of a record is the one that a configuration in force in the run gave for the packet that
created the flow. -/
def Configured (history : List SystemEvent) (record : FlowStateValue) : Prop :=
  ∃ e ∈ history, e.op = .configLookup ∧ ∃ creator, packetKey creator = record.original ∧
    e.before.runtimeConfig.targetFor creator =
      some (record.target.destination, record.target.destinationPort)

/-- `targetFor` depends on the family of the packet alone. -/
theorem targetFor_congr (config : RuntimeConfigValue) {packet packet' : PacketInfo}
    (hfamily : packet.family = packet'.family) : config.targetFor packet = config.targetFor packet' := by
  simp only [RuntimeConfigValue.targetFor, hfamily]

/-- A record that `Stems` from a creation is `Configured`, and the tuples of its flow are of one
family. -/
theorem configured_of_stems {s : Maps} {w : SystemWorld}
    (hreach : (system Slots.split).Reachable (World.start s) w) {record : FlowStateValue}
    (h : Stems key record w.history) :
    Configured w.history record ∧ ∀ tuple ∈ tuplesOf record, tuple.family = record.original.family := by
  obtain ⟨e, he, candidate, hcreation, htuples⟩ := h
  obtain ⟨candidate', hop⟩ := Flows.insert_of_creates (Concurrent.creates_of_creation hcreation)
  obtain rfl : candidate' = candidate := by
    obtain ⟨thread, job, choice, op, resp, before⟩ := e
    obtain rfl : op = .update .flowState key candidate' .noexist := hop
    simp only [creation] at hcreation
    split at hcreation
    · exact congrArg Prod.snd (Option.some.inj hcreation)
    · cases hcreation
  obtain ⟨creator, config, target, port, previous, now, hconfig, -, htarget, rfl, -⟩ :=
    Flows.sourced_of_insert Slots.proper_split hreach he hop
  obtain ⟨e', he', -, hanswer⟩ := World.mem_answers_iff.mp hconfig
  obtain ⟨s', hexec⟩ := hreach.executed e' he'
  simp only [tuplesOf, makeCandidate, List.cons.injEq, and_true] at htuples
  obtain ⟨horiginal, htarget', hreverse⟩ := htuples
  constructor
  · refine ⟨e', he', congrArg Sigma.fst hanswer, creator, horiginal, ?_⟩
    obtain ⟨thread, job, choice, op, resp, before⟩ := e'
    cases hanswer
    obtain rfl : before.runtimeConfig = config :=
      Option.some.inj (congrArg Prod.fst (Option.some.inj hexec))
    rw [← htarget', htarget]
  · simp only [tuplesOf, List.mem_cons, List.not_mem_nil, or_false, forall_eq_or_imp, forall_eq,
      ← horiginal, ← htarget', ← hreverse, and_self]

/-! ## Every interleaving -/

/-- The first event of a thread that `readsRecord`. -/
def firstRecordLookup (w : SystemWorld) (thread : Nat) : Option SystemEvent :=
  w.history.reverse.find? fun e => e.thread = thread && readsRecord e.op

theorem firstRecord_answers (w : SystemWorld) (thread : Nat) :
    firstRecord (w.answers thread) = (firstRecordLookup w thread).map fun e => ⟨e.op, e.resp⟩ := by
  rw [firstRecord, World.answers_eq, List.find?_map, List.find?_filter, firstRecordLookup]
  simp

/-- A thread redirected its packet to the target of a flow whose record it found in the map and
active, and a configuration of the run gave that target. -/
def Redirected (w : SystemWorld) (thread : Nat) (frame : List UInt8) (packet : PacketInfo)
    (action : TcAction) (frame' : List UInt8) : Prop :=
  ∃ e ∈ w.history, e.thread = thread ∧ ∃ key record, e.op = .lookup .flowState key ∧
    e.before.find .flowState key = some record ∧ record.lifecycle = flowActive ∧ action = .ok ∧
    frame' = rewriteDestination frame packet record.target.destination
      record.target.destinationPort ∧
    Configured w.history record

/-- A packet left toward the target that a configuration of the run gives for it: what leaves parses as
the packet with that target in the place of its destination. -/
def TowardProxy (history : List SystemEvent) (packet : PacketInfo) (action : TcAction)
    (frame' : List UInt8) : Prop :=
  action = .ok ∧ ∃ e ∈ history, e.op = .configLookup ∧ ∃ target targetPort,
    e.before.runtimeConfig.targetFor packet = some (target, targetPort) ∧
    parsePacket frame' = some { packet with destination := target, destinationPort := targetPort }

/-- What a `lookup` answered is what the map held. -/
theorem resp_of_lookup {e : SystemEvent} {s' : Maps}
    (hexec : exec e.choice e.op e.before = some (e.resp, s')) {m : MapId} {key : m.Key}
    {resp : Option m.Val}
    (h : (⟨e.op, e.resp⟩ : Answer Op Resp) = ⟨.lookup m key, resp⟩) :
    resp = e.before.find m key := by
  obtain ⟨thread, job, choice, op, resp', before⟩ := e
  cases h
  exact (exec_lookup hexec).1

/-- A thread that has returned a verdict followed a `Path` of `process_packet` with the answers it
got. -/
theorem path_of_returned {slots : Slots} {s₀ : Maps} {w : SystemWorld} {i : Nat}
    {frame frame' : List UInt8} {ingress : Bool} {action : TcAction}
    (hreach : (system slots).Reachable (World.start s₀) w)
    (hreturned : w.returned i = some (.packet frame ingress, .verdict action frame')) :
    Path (processPacket slots frame ingress) (w.answers i) (.ret (action, frame')) := by
  have hpath := hreach.path (World.returned_eq_some_iff.mp hreturned)
  obtain ⟨result, first, second, heq, hprocess, hret⟩ := path_bind_iff.mp hpath
  obtain ⟨rfl, hvalue⟩ := path_ret_iff.mp hret
  obtain ⟨rfl, rfl⟩ : action = result.1 ∧ frame' = result.2 := by simpa using hvalue
  rw [heq, List.append_nil]
  exact hprocess

section Reached

variable {config : RuntimeConfigValue} {w : SystemWorld} {i : Nat} {frame frame' : List UInt8}
  {packet : PacketInfo} {action : TcAction}
  (hreach : (system Slots.split).Reachable (World.start (Maps.initial config)) w)
include hreach

/-- What the maps held at an event of the run has `Provenance` in the run. -/
theorem provenance_before {e : SystemEvent} (he : e ∈ w.history) :
    ∃ earlier, earlier ⊆ w.history ∧ Concurrent.Provenance e.before earlier := by
  obtain ⟨later, earlier, hsplit⟩ := List.append_of_mem he
  obtain ⟨w', hreach', rfl, hshared⟩ := hreach.before hsplit
  refine ⟨w'.history, ?_, hshared ▸ Concurrent.provenance_of_reachable hreach'⟩
  rw [hsplit]
  exact fun e' he' => List.mem_append_right _ (List.mem_cons_of_mem _ he')

/-- A record that was found `Stems` from a creation in the run. -/
theorem stems_of_find {e : SystemEvent} (he : e ∈ w.history) {key : FlowStateKey}
    {record : FlowStateValue} (hrecord : e.before.find .flowState key = some record) :
    Stems key record w.history := by
  obtain ⟨earlier, hsub, hprovenance⟩ := provenance_before hreach he
  obtain ⟨e', he', hstems⟩ := hprovenance.records key record hrecord
  exact ⟨e', hsub he', hstems⟩

/-- The flow that an answer `Names` is `Founded` with the tuple of the packet. -/
theorem founded_of_names {index : FlowIndexValue} {a : Answer Op Resp} (ha : a ∈ w.answers i)
    (hnames : Names packet index a) : Founded (keyOfIndex index) (packetKey packet) w.history := by
  obtain ⟨e, he, -, hanswer⟩ := World.mem_answers_iff.mp ha
  obtain ⟨s', hexec⟩ := hreach.executed e he
  rcases hnames with rfl | ⟨candidate, rfl, horiginal⟩
  · obtain ⟨earlier, hsub, hprovenance⟩ := provenance_before hreach he
    obtain ⟨record, ⟨e', he', hstems⟩, htuple⟩ :=
      hprovenance.indexes (packetKey packet) index (resp_of_lookup hexec hanswer).symm
    exact ⟨record, ⟨e', hsub he', hstems⟩, htuple⟩
  · refine ⟨candidate, ⟨e, he, candidate, ?_, rfl⟩, by simp [tuplesOf, horiginal]⟩
    obtain ⟨thread, job, choice, op, resp, before⟩ := e
    cases hanswer
    rfl

theorem redirected_iff :
    Redirected w i frame packet action frame' ↔
      ∃ key record, Redirects frame packet (w.answers i) (action, frame') key record := by
  constructor
  · rintro ⟨e, he, hthread, key, record, hop, hrecord, hactive, rfl, rfl, -⟩
    obtain ⟨s', hexec⟩ := hreach.executed e he
    refine ⟨key, record, World.mem_answers_iff.mpr ⟨e, he, hthread, ?_⟩, hactive, rfl⟩
    obtain ⟨thread, job, choice, op, resp, before⟩ := e
    obtain rfl : op = .lookup .flowState key := hop
    have hresp : resp = some record := (exec_lookup (c := choice) hexec).1.trans hrecord
    rw [hresp]
  · rintro ⟨key, record, hmem, hactive, hresult⟩
    obtain ⟨e, he, hthread, hanswer⟩ := World.mem_answers_iff.mp hmem
    obtain ⟨s', hexec⟩ := hreach.executed e he
    obtain ⟨haction, hframe⟩ := Prod.mk.inj hresult
    have hrecord := (resp_of_lookup hexec hanswer).symm
    exact ⟨e, he, hthread, key, record, congrArg Sigma.fst hanswer, hrecord, hactive, haction, hframe,
      (configured_of_stems hreach (stems_of_find hreach he hrecord)).1⟩

/-- While draws are `Numbered`, a packet that was redirected by the record it was led to leaves
`TowardProxy`. -/
theorem towardProxy_of_redirects (hparse : parsePacket frame = some packet)
    (hnumbered : ∀ e ∈ w.history, Numbered e) {index : FlowIndexValue} {record : FlowStateValue}
    (hnames : ∃ a ∈ w.answers i, Names packet index a)
    (h : Redirects frame packet (w.answers i) (action, frame') (keyOfIndex index) record) :
    TowardProxy w.history packet action frame' := by
  obtain ⟨hmem, -, hresult⟩ := h
  obtain ⟨rfl, rfl⟩ := Prod.mk.inj hresult
  obtain ⟨e, he, -, hanswer⟩ := World.mem_answers_iff.mp hmem
  obtain ⟨s', hexec⟩ := hreach.executed e he
  have hstems := stems_of_find hreach he (resp_of_lookup hexec hanswer).symm
  obtain ⟨⟨e', he', hop, creator, hcreator, htarget⟩, hfamilies⟩ := configured_of_stems hreach hstems
  obtain ⟨a, ha, hname⟩ := hnames
  have htuple := hstems.mem_tuplesOf (Concurrent.fresh_of_numbered hreach hnumbered)
    (founded_of_names hreach ha hname)
  have hfamily : packet.family = creator.family := by
    have := hfamilies _ htuple
    rw [← hcreator] at this
    exact this
  rw [← targetFor_congr _ hfamily] at htarget
  refine ⟨rfl, e', he', hop, _, _, htarget, parsePacket_rewriteDestination hparse fun h4 => ?_⟩
  obtain ⟨a, htarget', -⟩ := (usable_of_targetFor htarget).2.1 h4
  exact ⟨a, htarget'⟩

/-- **A forward packet with a usable target is dropped or redirected to a configured target, exactly
when its flow's record is there and active.** From the load on, in every interleaving of classifier runs
and host calls, a forward packet that is not control traffic and has a target at every operation of its
run ends dropped or redirected, by the record of a flow whose target a configuration of the run gave, if
and only if the record it looks up first, the record of the flow its tuple is indexed to, is in the map
and active at that moment. While the counter of generations does not wrap, the packet then is dropped or
leaves with the target that a configuration of the run gives for it in the place of its destination.
Otherwise the packet passes as it came. -/
theorem forward_settled_iff
    (hreturned : w.returned i = some (.packet frame true, .verdict action frame'))
    (hparse : parsePacket frame = some packet)
    (husable : ∀ e ∈ w.history, e.thread = i → Usable packet e.before.runtimeConfig) :
    ((action = .shot ∨ Redirected w i frame packet action frame') ↔
      ∀ e, firstRecordLookup w i = some e → findsActive e.before e.op = true) ∧
    ((∀ e, firstRecordLookup w i = some e → findsActive e.before e.op = true) →
      (∀ e ∈ w.history, Numbered e) →
      action = .shot ∨ TowardProxy w.history packet action frame') ∧
    ((∃ e, firstRecordLookup w i = some e ∧ findsActive e.before e.op = false) →
      action = .ok ∧ frame' = frame) := by
  have hreads : ReadsUsable packet (w.answers i) := by
    intro resp hmem
    obtain ⟨e, he, hthread, hanswer⟩ := World.mem_answers_iff.mp hmem
    obtain ⟨s', hexec⟩ := hreach.executed e he
    refine ⟨e.before.runtimeConfig, ?_, husable e he hthread⟩
    obtain ⟨thread, job, choice, op, resp', before⟩ := e
    cases hanswer
    exact (congrArg Prod.fst (Option.some.inj hexec)).symm
  have hfate := path_processPacket Slots.proper_split hparse (path_of_returned hreach hreturned) hreads
  -- What the first lookup found is what its answer says.
  have hlookup : ∀ key state, firstRecord (w.answers i) = some ⟨.lookup .flowState key, state⟩ →
      ∃ e, firstRecordLookup w i = some e ∧ findsActive e.before e.op = isActive state := by
    intro key state hfirst
    rw [firstRecord_answers, Option.map_eq_some_iff] at hfirst
    obtain ⟨e, he, hanswer⟩ := hfirst
    have hmem : e ∈ w.history := List.mem_reverse.mp (List.mem_of_find?_eq_some he)
    obtain ⟨s', hexec⟩ := hreach.executed e hmem
    refine ⟨e, he, ?_⟩
    rw [resp_of_lookup hexec hanswer, show e.op = .lookup .flowState key from
      congrArg Sigma.fst hanswer]
    rfl
  rw [redirected_iff hreach]
  cases hfate with
  | dropped hfirst hresult =>
    rw [firstRecord_answers, Option.map_eq_none_iff] at hfirst
    simp [hfirst, show action = .shot from hresult]
  | admitted index state hfirst hnames hactive hresult =>
    obtain ⟨e, he, hfinds⟩ := hlookup _ state hfirst
    simp only [he, Option.some.injEq, forall_eq', exists_eq_left', hfinds, hactive,
      Bool.true_eq_false, false_implies, iff_true, forall_const, and_true]
    refine ⟨hresult.imp_right fun ⟨record, h⟩ => ⟨_, record, h⟩, fun hnumbered =>
      hresult.imp_right fun ⟨record, h⟩ => ?_⟩
    exact towardProxy_of_redirects hreach hparse hnumbered hnames h
  | passed key state hfirst hactive hresult hnot =>
    obtain ⟨e, he, hfinds⟩ := hlookup key state hfirst
    obtain ⟨rfl, rfl⟩ := Prod.mk.inj hresult
    simp only [he, Option.some.injEq, forall_eq', exists_eq_left', hfinds, hactive,
      Bool.false_eq_true, false_implies, iff_false, and_self, implies_true, and_true]
    rintro (hshot | ⟨key', record, hredirects⟩)
    · cases hshot
    · exact hnot key' record hredirects

end Reached

instance (packet : PacketInfo) (config : RuntimeConfigValue) : Decidable (Usable packet config) :=
  inferInstanceAs (Decidable (_ ∧ _))

/-- The sample datagram creates its flow; the configuration names another target from then on; the next
datagram of the client is redirected to the target of the flow. -/
theorem forward_settled_sample :
    ∃ w : SystemWorld, (system Slots.split).Reachable (World.start (Maps.initial sampleConfig)) w ∧
      w.shared.runtimeConfig.v4TargetPort = 9000 ∧ TowardProxy w.history samplePacket .ok
        (rewriteDestination sampleFrame samplePacket (ipv4ToMapped #v[10, 0, 0, 3]) 3000) := by
  have hrun : ((system Slots.split).run (World.start (Maps.initial sampleConfig))
      (.spawn (.packet sampleFrame true) :: List.replicate 29 (.step 0 { now := 5 }) ++
        .spawn (.setConfig sampleRetarget) :: .step 1 {} ::
        .spawn (.packet sampleFrame true) :: List.replicate 14 (.step 2 { now := 7 }))).any (fun w =>
        w.shared.runtimeConfig.v4TargetPort = 9000 &&
        w.returned 2 = some (.packet sampleFrame true, .verdict .ok
          (rewriteDestination sampleFrame samplePacket (ipv4ToMapped #v[10, 0, 0, 3]) 3000)) &&
        (w.history.all fun e => Usable samplePacket e.before.runtimeConfig) &&
        (w.history.all fun e => Numbered e) &&
        (firstRecordLookup w 2).all fun e => findsActive e.before e.op) = true := by
    decide +kernel
  obtain ⟨w, hreach, hcheck⟩ := Pool.exists_reachable_of_run hrun
  simp only [Bool.and_eq_true, decide_eq_true_eq, List.all_eq_true, Option.all_eq_true] at hcheck
  obtain ⟨⟨⟨⟨hport, hreturned⟩, husable⟩, hnumbered⟩, hfirst⟩ := hcheck
  refine ⟨w, hreach, hport, ?_⟩
  rcases (forward_settled_iff hreach hreturned (by decide) fun e he _ => husable e he).2.1 hfirst
    hnumbered with hshot | htoward
  · cases hshot
  · exact htoward

/-- A second packet of the sample client comes while the first is still creating the flow: it finds
the index, and a record that is not active yet. -/
theorem forward_passes_while_creating :
    ∃ w : SystemWorld, (system Slots.split).Reachable (World.start (Maps.initial sampleConfig)) w ∧
      parsePacket sampleFrame = some samplePacket ∧
      (∀ e ∈ w.history, e.before.runtimeConfig = sampleConfig) ∧
      sampleConfig.controls samplePacket true = false ∧
      sampleConfig.targetFor samplePacket = some (ipv4ToMapped #v[10, 0, 0, 3], 3000) ∧
      w.returned 1 = some (.packet sampleFrame true, .verdict .ok sampleFrame) := by
  have hrun : ((system Slots.split).run (World.start (Maps.initial sampleConfig))
      (.spawn (.packet sampleFrame true) :: List.replicate 13 (.step 0 { now := 5 }) ++
        .spawn (.packet sampleFrame true) :: List.replicate 3 (.step 1 { now := 6 }))).any (fun w =>
        w.returned 1 = some (.packet sampleFrame true, .verdict .ok sampleFrame) &&
        w.history.all fun e => e.before.runtimeConfig = sampleConfig) = true := by
    decide +kernel
  obtain ⟨w, hreach, hcheck⟩ := Pool.exists_reachable_of_run hrun
  simp only [Bool.and_eq_true, decide_eq_true_eq, List.all_eq_true] at hcheck
  exact ⟨w, hreach, by decide, hcheck.2, by decide, by decide, hcheck.1⟩

end ShadowSocketProxy.Forwarding
