import ShadowSocketProxy.Concurrent.Identities
import ShadowSocketProxy.Flows.Table

/-! # Rewrites under interleaving

A packet is rewritten by a record that it has found through an index. Between the two lookups flows may
be deleted and their tuples be taken by other flows. Still the record is one of a flow that was created
with the tuple of the packet: an index names an identity, and no identity is used twice. -/

namespace ShadowSocketProxy.Concurrent

open Interleaving Bpf ControlService
open Alone (keyOf ownerOf tuplesOf activated)

/-! ## Creations in a history -/

/-- The identity and the record an answered operation created. -/
def creation : (op : Op) → Resp op → Option (FlowStateKey × FlowStateValue)
  | .update .flowState key record .noexist, created => if created then some (key, record) else none
  | _, _ => none

theorem creates_of_creation {op : Op} {resp : Resp op} {key : FlowStateKey} {record : FlowStateValue}
    (h : creation op resp = some (key, record)) : creates key op resp = true := by
  cases op
  case update m key' value flag =>
      cases m <;> cases flag <;> first | cases h | skip
      simp only [creation] at h
      split at h
      · rename_i hdone
        cases h
        simp [creates, hdone]
      · cases h
  all_goals cases h

/-- A flow was created under the identity with the tuples of the record. -/
def Stems (key : FlowStateKey) (record : FlowStateValue) (history : List SystemEvent) : Prop :=
  ∃ e ∈ history, ∃ candidate, creation e.op e.resp = some (key, candidate) ∧
    tuplesOf candidate = tuplesOf record

/-- A flow was created under the identity with the tuple. -/
def Founded (key : FlowStateKey) (tuple : TupleKey) (history : List SystemEvent) : Prop :=
  ∃ record, Stems key record history ∧ tuple ∈ tuplesOf record

section Creations

variable {key : FlowStateKey} {tuple : TupleKey} {record record' : FlowStateValue} {e : SystemEvent}
  {history : List SystemEvent}

theorem Stems.cons (h : Stems key record history) : Stems key record (e :: history) := by
  obtain ⟨e', he', hstems⟩ := h
  exact ⟨e', List.mem_cons_of_mem _ he', hstems⟩

theorem Founded.cons (h : Founded key tuple history) : Founded key tuple (e :: history) := by
  obtain ⟨record, hstems, htuple⟩ := h
  exact ⟨record, hstems.cons, htuple⟩

theorem Stems.congr (h : Stems key record history) (htuples : tuplesOf record' = tuplesOf record) :
    Stems key record' history := by
  obtain ⟨e, he, candidate, hcreation, heq⟩ := h
  exact ⟨e, he, candidate, hcreation, heq.trans htuples.symm⟩

/-- Under one identity one `creation` was made. -/
theorem creation_unique (hfresh : Fresh history) {e e' : SystemEvent} (he : e ∈ history)
    (he' : e' ∈ history) (h : creation e.op e.resp = some (key, record))
    (h' : creation e'.op e'.resp = some (key, record')) : record = record' := by
  induction history with
  | nil => cases he
  | cons last history ih =>
    rcases List.mem_cons.mp he with rfl | hold <;> rcases List.mem_cons.mp he' with rfl | hold'
    · exact congrArg Prod.snd (Option.some.inj (h.symm.trans h'))
    · exact absurd ⟨e', hold', creates_of_creation h'⟩ (hfresh.1 key (creates_of_creation h))
    · exact absurd ⟨e, hold, creates_of_creation h⟩ (hfresh.1 key (creates_of_creation h'))
    · exact ih hfresh.2 hold hold'

/-- An index that is `Founded` and a record that `Stems` from one identity belong to one flow. -/
theorem Stems.mem_tuplesOf (h : Stems key record history) (hfresh : Fresh history)
    (hfounded : Founded key tuple history) : tuple ∈ tuplesOf record := by
  obtain ⟨e, he, candidate, hcreation, heq⟩ := h
  obtain ⟨record', ⟨e', he', candidate', hcreation', heq'⟩, htuple⟩ := hfounded
  rw [← heq, creation_unique hfresh he he' hcreation hcreation', heq']
  exact htuple

end Creations

/-! ## The invariant -/

/-- What a thread knows of the flow it works on. -/
def Phase.Rooted (history : List SystemEvent) : Phase → Prop
  | .creating candidate => Stems (keyOf candidate) candidate history
  | .resolved tuple index => Founded (keyOfIndex index) tuple history
  | .admitted tuple record =>
    (Fresh history → tuple ∈ tuplesOf record) ∧ ∃ key, Stems key record history
  | _ => True

theorem Phase.Rooted.cons {φ : Phase} {e : SystemEvent} {history : List SystemEvent}
    (h : φ.Rooted history) : φ.Rooted (e :: history) := by
  cases φ with
  | creating candidate => exact Stems.cons h
  | resolved tuple index => exact Founded.cons h
  | admitted tuple record =>
    obtain ⟨htuple, key, hstems⟩ := h
    exact ⟨fun hfresh => htuple hfresh.2, key, hstems.cons⟩
  | _ => trivial

/-- Records and indexes go back to the creation of their flow. -/
structure Provenance (s : Maps) (history : List SystemEvent) : Prop where
  records : ∀ key record, s.find .flowState key = some record → Stems key record history
  indexes : ∀ tuple index, s.find .flowIndex tuple = some index →
    Founded (keyOfIndex index) tuple history

section Steps

variable {s s' : Maps} {history : List SystemEvent} {e : SystemEvent} {φ φ' : Phase} {host : Bool}

theorem Provenance.cons (h : Provenance s history)
    (hrecords : ∀ key record, s'.find .flowState key = some record →
      s.find .flowState key = some record ∨ Stems key record (e :: history))
    (hindexes : ∀ tuple index, s'.find .flowIndex tuple = some index →
      s.find .flowIndex tuple = some index ∨ Founded (keyOfIndex index) tuple (e :: history)) :
    Provenance s' (e :: history) where
  records key record hrecord := (hrecords key record hrecord).elim (fun h' =>
    (h.records key record h').cons) id
  indexes tuple index hindex := (hindexes tuple index hindex).elim (fun h' =>
    (h.indexes tuple index h').cons) id

/-- `Provenance` with a record written; the indexes are as they were. -/
theorem Provenance.put (h : Provenance s history) {key : FlowStateKey} {record : FlowStateValue}
    (hstems : Stems key record (e :: history)) :
    Provenance (s.put .flowState key record) (e :: history) := by
  refine h.cons (fun k r hr => ?_) fun t i hi => .inl ?_
  · rw [Maps.find_put] at hr
    split at hr
    · rename_i hk
      cases hr
      exact .inr (hk ▸ hstems)
    · exact .inl hr
  · rwa [Maps.find_put_of_ne _ _ _ (by decide)] at hi

theorem Provenance.same (h : Provenance s history) (hrecords : s'.tables .flowState = s.tables .flowState)
    (hindexes : ∀ tuple index, s'.find .flowIndex tuple = some index →
      s.find .flowIndex tuple = some index) : Provenance s' (e :: history) := by
  refine h.cons (fun key record hrecord => .inl ?_) fun tuple index hindex => .inl (hindexes _ _ hindex)
  rw [Maps.find, ← hrecords]
  exact hrecord

/-- `Provenance` with a record removed, or not there. -/
theorem Provenance.remove (h : Provenance s history) (key : FlowStateKey)
    (hs' : s' = s ∨ s' = s.remove .flowState key) : Provenance s' (e :: history) := by
  refine h.cons (fun k r hr => .inl ?_) fun t i hi => .inl ?_
  · rcases hs' with rfl | rfl
    · exact hr
    · exact find_of_find_remove hr
  · rcases hs' with rfl | rfl
    · exact hi
    · rwa [Maps.find_remove_of_ne _ _ (by decide)] at hi

/-- What a packet `Learns` is `Rooted` in a creation. -/
theorem Learns.rooted (h : Learns host φ e.op e.resp φ')
    (hexec : exec e.choice e.op e.before = some (e.resp, s')) (hinv : Provenance e.before history)
    (hφ : φ.Rooted history) : φ'.Rooted history := by
  obtain ⟨thread, job, c, op, resp, s⟩ := e
  cases h with
  | resolve tuple index =>
    obtain ⟨hindex, -⟩ := exec_lookup hexec
    exact hinv.indexes tuple index hindex.symm
  | enter tuple index record =>
    obtain ⟨hrecord, -⟩ := exec_lookup hexec
    have hstems := hinv.records _ record hrecord.symm
    exact ⟨fun hfresh => hstems.mem_tuplesOf hfresh hφ, _, hstems⟩
  | _ => trivial

/-- **Every step keeps `Provenance`**, and what the thread knows `Rooted`. -/
theorem provenance_step (hstep : Moves e.job φ e.op e.resp φ')
    (hexec : exec e.choice e.op e.before = some (e.resp, s')) (hinv : Provenance e.before history)
    (hφ : φ.Rooted history) :
    Provenance s' (e :: history) ∧ φ'.Rooted (e :: history) := by
  have hlearn : ∀ host, Learns host φ e.op e.resp φ' → φ'.Rooted (e :: history) := fun host h =>
    (h.rooted hexec hinv hφ).cons
  obtain ⟨thread, job, c, op, resp, s⟩ := e
  have hsame : s'.tables .flowState = s.tables .flowState →
      s'.tables .flowIndex = s.tables .flowIndex →
      Provenance s' (⟨thread, job, c, op, resp, s⟩ :: history) := fun hrecords hindexes =>
    hinv.same hrecords fun tuple index hindex => by
      rw [Maps.find, ← hindexes]
      exact hindex
  cases hstep with
  | idle h hrests =>
    have hunchanged := unchanged_of_idle h hexec
    refine ⟨hinv.same hunchanged.records hunchanged.indexes, ?_⟩
    cases hrests with
    | stay => exact hφ.cons
    | leak h => cases h <;> trivial
    | _ => trivial
  | learn h hlearns =>
    have hunchanged := h.unchanged hexec
    exact ⟨hinv.same hunchanged.records hunchanged.indexes, hlearn _ hlearns⟩
  | store key write =>
    refine ⟨?_, hφ.cons⟩
    simp only [exec] at hexec
    split at hexec
    · rename_i record hrecord
      cases hexec
      exact hinv.put ((hinv.records key record hrecord).congr
        (Flows.Alike.tuplesOf_eq (fixedPart_apply write record))).cons
    · cases hexec
      exact hsame rfl rfl
  | insert candidate hcreating =>
    rcases exec_update hexec with ⟨hresp, -⟩ | ⟨-, rfl, -⟩
    · cases hresp
    · refine ⟨hinv.put ?_, ?_⟩ <;> exact ⟨_, List.mem_cons_self, candidate, rfl, rfl⟩
  | @index candidate tuple htuple =>
    rcases exec_update hexec with ⟨hresp, -⟩ | ⟨-, rfl, -⟩
    · cases hresp
    · refine ⟨hinv.cons (fun k r hr => .inl ?_) fun t i hi => ?_, hφ.cons⟩
      · rwa [Maps.find_put_of_ne _ _ _ (by decide)] at hr
      · rw [Maps.find_put] at hi
        split at hi
        · rename_i ht
          cases hi
          exact .inr (Founded.cons ⟨candidate, hφ, ht ▸ htuple⟩)
        · exact .inl hi
  | activate candidate =>
    rcases exec_update hexec with ⟨hresp, -⟩ | ⟨-, rfl, -⟩
    · cases hresp
    · exact ⟨hinv.put (Stems.congr hφ rfl).cons,
        Founded.cons ⟨candidate, hφ, List.mem_cons_self⟩⟩
  | takeBack candidate done =>
    refine ⟨hinv.remove (keyOf candidate) ?_, trivial⟩
    rcases exec_delete hexec with ⟨-, hs', -⟩ | ⟨-, hs', -⟩
    · exact .inl hs'
    · exact .inr hs'
  | remove hhost key =>
    refine ⟨hinv.remove key ?_, trivial⟩
    rcases exec_hostRemove hexec with ⟨_, -, hs'⟩ | ⟨-, hs', -⟩
    · exact .inl hs'
    · exact .inr hs'
  | configure =>
    exact ⟨hsame (exec_tables hexec fun k => by rintro ⟨⟩) (exec_tables hexec fun k => by rintro ⟨⟩),
      hφ.cons⟩
  | back h =>
    refine ⟨hsame (exec_tables hexec fun k h => h) (exec_tables hexec fun k h => h), ?_⟩
    cases h <;> trivial
  | take =>
    refine ⟨hsame (exec_tables hexec fun k h => h) (exec_tables hexec fun k h => h), ?_⟩
    split <;> trivial
  | reserve _ _ hatomic => cases hatomic
  | unindex hhost key tuple =>
    have hunchanged := unchanged_of_unindex hexec
    exact ⟨hinv.same hunchanged.records hunchanged.indexes, trivial⟩
  | _ =>
    exact ⟨hsame (exec_tables hexec fun k => by rintro ⟨⟩) (exec_tables hexec fun k => by rintro ⟨⟩),
      trivial⟩

end Steps

/-! ## Every interleaving -/

/-- The frame is as it came, or rewritten by a record of a flow that was created with its tuple. -/
def OwnRewrite (frame : List UInt8) (ingress : Bool) (out : List UInt8)
    (history : List SystemEvent) : Prop :=
  out = frame ∨ ∃ packet record key, parsePacket frame = some packet ∧
    out = rewriteFrame frame packet ingress record ∧ packetKey packet ∈ tuplesOf record ∧
    Stems key record history

/-- What a packet comes to: an `OwnRewrite`. -/
def Routed (job : Job) (outcome : Outcome) (history : List SystemEvent) : Prop :=
  ∀ frame ingress action out, job = .packet frame ingress → outcome = .verdict action out →
    OwnRewrite frame ingress out history

/-- The outline with `Provenance` as its invariant. -/
def provenance : Outline Op Resp Maps Choice Job Outcome Phase where
  inv s history running := Provenance s history ∧ ∀ x ∈ running, x.2.Rooted history
  permitted _ := True
  ends _ job := Ends job
  settled _ job outcome history := Fresh history → Routed job outcome history

theorem provenance_valid (config : RuntimeConfigValue) :
    provenance.Valid (system Slots.split) (Maps.initial config) := by
  have hkept : provenance.Kept machine Moves := by
    rintro thread job φ op resp φ' c s s' history rest hstep ⟨hprovenance, hrooted⟩ hexec -
    obtain ⟨hprovenance', hφ'⟩ := provenance_step (e := ⟨thread, job, c, op, resp, s⟩) hstep hexec
      hprovenance (hrooted _ (Multiset.mem_cons_self _ _))
    refine ⟨hprovenance', fun x hx => ?_⟩
    rcases Multiset.mem_cons.mp hx with rfl | hx
    · exact hφ'
    · exact (hrooted x (Multiset.mem_cons_of_mem hx)).cons
  refine hkept.valid rfl ⟨⟨fun _ _ h => ?_, fun _ _ h => ?_⟩, fun x hx =>
    absurd hx (Multiset.notMem_zero x)⟩ (fun _ => .calm) (fun _ job => follows_code false job) ?_ ?_ ?_
  · cases h
  · cases h
  · rintro job s history running threads ⟨hprovenance, hrooted⟩ - -
    refine ⟨hprovenance, fun x hx => ?_⟩
    rcases Multiset.mem_cons.mp hx with rfl | hx
    · trivial
    · exact hrooted x hx
  · rintro thread job φ value s history rest hends ⟨hprovenance, hrooted⟩
    refine ⟨⟨hprovenance, fun x hx => hrooted x (Multiset.mem_cons_of_mem hx)⟩,
      fun hfresh frame ingress action out hjob hout => ?_⟩
    rcases hends.2 frame ingress action out hjob hout with hsame | ⟨packet, record, hparse, rfl, -, heq⟩
    · exact .inl hsame
    · obtain ⟨htuple, key, hstems⟩ := hrooted _ (Multiset.mem_cons_self _ _)
      exact .inr ⟨packet, record, key, hparse, heq, htuple hfresh, hstems⟩
  · intro thread job value e history hsettled hfresh frame ingress action out hjob hout
    rcases hsettled hfresh.2 frame ingress action out hjob hout with hsame | ⟨packet, record, key, h⟩
    · exact .inl hsame
    · exact .inr ⟨packet, record, key, h.1, h.2.1, h.2.2.1, h.2.2.2.cons⟩

/-- `Provenance` in every reached world. -/
theorem provenance_of_reachable {config : RuntimeConfigValue} {w : SystemWorld}
    (hreach : (system Slots.split).Reachable (World.start (Maps.initial config)) w) :
    Provenance w.shared w.history := by
  obtain ⟨running, hprovenance, -⟩ := (provenance_valid config).inv hreach fun _ _ => trivial
  exact hprovenance

end ShadowSocketProxy.Concurrent
