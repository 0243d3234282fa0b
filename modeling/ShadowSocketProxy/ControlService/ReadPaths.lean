import ShadowSocketProxy.ControlService.Codecs
import ShadowSocketProxy.ControlService.Listing
import ShadowSocketProxy.Flows.Readable

/-! # The two ways to read mappings

`GetMapping` goes through the tuple index, which the three tuples of a flow share, and reports the tuple
it was asked for as the synthetic one. `ListMappings` goes through the records and reports their target
tuples. -/

namespace ShadowSocketProxy.ControlService

open Bytes Bpf Interleaving Alone
open Flows (Readable)
open Interleaving.Machine (wp_mono wp_seq)

variable {allowed : Choice → Prop} {s : Maps} {flow : FlowState} {tuple : Tuple}
  {key : FlowStateKey} {entries : List MappingEntry} {message : Proto.Mapping}

/-! ## Listing -/

/-- The maps have an active flow under a key. -/
def Recorded (s : Maps) (key : FlowStateKey) (flow : FlowState) : Prop :=
  ∃ record, s.find .flowState key = some record ∧ decodeFlowState record.pack = .ok flow ∧
    flow.lifecycle = .active

theorem Recorded.valid (h : Recorded s key flow) : flow.validate = .ok () := by
  obtain ⟨record, -, hdecode, -⟩ := h
  exact validate_of_decodeFlowState hdecode

/-- The entries of the active flows of some maps. -/
def snapshotEntries (s : Maps) : Except AbiError (List MappingEntry) := do
  let flows ← (s.tables .flowState).pairs.mapM fun entry => decodeFlowState entry.2.pack
  pure ((flows.filter fun flow => flow.lifecycle = .active).map FlowState.entry)

theorem ensures_listEntries (hfaultless : ¬ Faulty allowed) :
    Ensures allowed listEntries.run (fun r _ => r = (snapshotEntries s).mapError fun error =>
      .operation "flow-state:decode" error.message) s := by
  unfold listEntries listFlowStates snapshotEntries
  rw [bind_assoc]
  refine ensures_iterate ?_ fun hfaulty => absurd hfaulty hfaultless
  cases (s.tables .flowState).pairs.mapM fun entry => decodeFlowState entry.2.pack with
  | error error => rfl
  | ok flows => rfl

/-- A request is answered from the entries of the active flows. -/
theorem ensures_listMappings (hfaultless : ¬ Faulty allowed) (request : Proto.ListMappingsRequest) :
    Ensures allowed (listMappings request) (fun r _ => ∀ reply, r = .ok reply ↔
      ∃ entries, snapshotEntries s = .ok entries ∧ answerListing request entries = .ok reply) s := by
  unfold listMappings answerListing
  cases readListing request with
  | error status =>
    refine fun reply => iff_of_false (by rintro ⟨⟩) ?_
    rintro ⟨_, -, ⟨⟩⟩
  | ok position =>
    refine wp_seq (ensures_listEntries hfaultless) fun r s' hr reply => ?_
    rw [hr]
    cases snapshotEntries s with
    | error error =>
      refine iff_of_false (by rintro ⟨⟩) ?_
      rintro ⟨_, ⟨⟩, -⟩
    | ok entries =>
      refine ⟨fun h => ⟨entries, rfl, h⟩, ?_⟩
      rintro ⟨_, ⟨⟩, h⟩
      exact h

/-- The entries are those of the records, every one of which decodes. -/
theorem snapshotEntries_eq_ok (h : snapshotEntries s = .ok entries) :
    ∃ flows : List FlowState,
      (s.tables .flowState).pairs.map (fun entry => decodeFlowState entry.2.pack) = flows.map .ok ∧
        entries = (flows.filter fun flow => flow.lifecycle = .active).map FlowState.entry := by
  obtain ⟨flows, hflows, h⟩ := bind_eq_ok.mp h
  exact ⟨flows, mapM_eq_ok.mp hflows, (Except.ok.inj h).symm⟩

/-- There are entries to list exactly where every record decodes. -/
theorem exists_snapshotEntries_iff : (∃ entries, snapshotEntries s = .ok entries) ↔ Readable s := by
  constructor
  · rintro ⟨entries, h⟩ key record hrecord
    obtain ⟨flows, hflows, -⟩ := snapshotEntries_eq_ok h
    have hmem := List.mem_map_of_mem (f := fun entry : FlowStateKey × FlowStateValue =>
      decodeFlowState entry.2.pack) (Table.mem_pairs_iff.mpr hrecord)
    rw [hflows] at hmem
    obtain ⟨flow, -, hflow⟩ := List.mem_map.mp hmem
    exact ⟨flow, hflow.symm⟩
  · intro hs
    obtain ⟨flows, hflows⟩ := exists_mapM_ok (f := fun entry : FlowStateKey × FlowStateValue =>
      decodeFlowState entry.2.pack) fun entry hentry =>
        hs entry.1 entry.2 (Table.mem_pairs_iff.mp hentry)
    exact ⟨_, bind_eq_ok.mpr ⟨flows, hflows, rfl⟩⟩

theorem mem_snapshotEntries_iff (h : snapshotEntries s = .ok entries) (entry : MappingEntry) :
    entry ∈ entries ↔ ∃ key flow, Recorded s key flow ∧ entry = flow.entry := by
  obtain ⟨flows, hflows, rfl⟩ := snapshotEntries_eq_ok h
  have hmem : ∀ flow, flow ∈ flows ↔ ∃ key record, s.find .flowState key = some record ∧
      decodeFlowState record.pack = .ok flow := by
    intro flow
    have hok : (.ok flow : Except AbiError FlowState) ∈ flows.map .ok ↔ flow ∈ flows :=
      List.mem_map_of_injective fun _ _ => Except.ok.inj
    rw [← hok, ← hflows, List.mem_map]
    constructor
    · rintro ⟨⟨key, record⟩, hpair, hdecode⟩
      exact ⟨key, record, Table.mem_pairs_iff.mp hpair, hdecode⟩
    · rintro ⟨key, record, hrecord, hdecode⟩
      exact ⟨(key, record), Table.mem_pairs_iff.mpr hrecord, hdecode⟩
  rw [List.mem_map]
  constructor
  · rintro ⟨flow, hflow, rfl⟩
    obtain ⟨hflow, hactive⟩ := List.mem_filter.mp hflow
    obtain ⟨key, record, hrecord, hdecode⟩ := (hmem flow).mp hflow
    exact ⟨key, flow, ⟨record, hrecord, hdecode, of_decide_eq_true hactive⟩, rfl⟩
  · rintro ⟨key, flow, ⟨record, hrecord, hdecode, hactive⟩, rfl⟩
    exact ⟨flow, List.mem_filter.mpr ⟨(hmem flow).mpr ⟨key, record, hrecord, hdecode⟩,
      decide_eq_true hactive⟩, rfl⟩

theorem length_snapshotEntries_le (h : snapshotEntries s = .ok entries) :
    entries.length ≤ (s.tables .flowState).pairs.length := by
  obtain ⟨flows, hflows, rfl⟩ := snapshotEntries_eq_ok h
  have hlength := congrArg List.length hflows
  rw [List.length_map, List.length_map] at hlength
  rw [List.length_map, hlength]
  exact List.length_filter_le _ _

/-! ## What is returned -/

/-- A lookup of a tuple returns a message. -/
def Gets (s : Maps) (tuple : Tuple) (message : Proto.Mapping) : Prop :=
  ∃ s', machine.Returns Faultless (getMapping (some (tupleToProto tuple))) s (.ok message) s'

/-- A full scan, page by page with some limit, returns a message. -/
def Lists (limit : UInt32) (s : Maps) (message : Proto.Mapping) : Prop :=
  ∃ tokens pages, message ∈ pages.flatten ∧
    ListingScan (fun _ request reply => ∃ warnings s',
      machine.Returns Faultless (listMappings request) s (.ok (reply, warnings)) s') limit 0 [] tokens
      pages

/-- Every active flow is indexed by its three tuples. -/
def Indexed (s : Maps) : Prop :=
  ∀ key flow, Recorded s key flow → ∀ tuple ∈ [flow.original, flow.target, flow.reverse],
    ∃ index, s.find .flowIndex (tupleKeyOf tuple) = some index ∧ index.version = mapAbiVersion ∧
      stateKeyOf index.flowId index.generation = key

/-- Whether a result is returned, for a program whose runs without faults all have it or not. -/
theorem exists_returns_iff {α : Type} {p : Prog α} {value : α} {P : Prop}
    (hspec : Ensures Faultless p (fun r _ => r = value ↔ P) s) :
    (∃ s', machine.Returns Faultless p s value s') ↔ P := by
  constructor
  · rintro ⟨s', hret⟩
    exact (hret.of_wp hspec).mp rfl
  · intro hvalue
    obtain ⟨r, s', hret⟩ := exists_returns_faultless p s
    have hr := (hret.of_wp hspec).mpr hvalue
    exact ⟨s', hr ▸ hret⟩

/-- A lookup returns the mapping of the flow its tuple leads to. -/
theorem gets_iff (hvalid : tuple.validate = .ok ()) :
    Gets s tuple message ↔
      ∃ flow, Leads s tuple flow ∧ message = mappingToProto (mappingFor tuple flow) :=
  exists_returns_iff (wp_mono (ensures_getMapping hvalid not_faulty_faultless)
    fun _ _ hspec => hspec message)

/-- A request is answered from the entries of the active flows. -/
theorem answered_iff {request : Proto.ListMappingsRequest} {reply : Proto.ListMappingsReply} :
    (∃ warnings s', machine.Returns Faultless (listMappings request) s (.ok (reply, warnings)) s') ↔
      ∃ entries, snapshotEntries s = .ok entries ∧
        ∃ warnings, answerListing request entries = .ok (reply, warnings) := by
  have hanswer : ∀ warnings,
      (∃ s', machine.Returns Faultless (listMappings request) s (.ok (reply, warnings)) s') ↔
        ∃ entries, snapshotEntries s = .ok entries ∧
          answerListing request entries = .ok (reply, warnings) := fun warnings =>
    exists_returns_iff (wp_mono (ensures_listMappings not_faulty_faultless request)
      fun _ _ hspec => hspec (reply, warnings))
  simp only [hanswer]
  exact ⟨fun ⟨warnings, entries, hentries, h⟩ => ⟨entries, hentries, warnings, h⟩,
    fun ⟨entries, hentries, warnings, h⟩ => ⟨warnings, entries, hentries, h⟩⟩

variable {limit : UInt32}

/-- A scan returns the messages of the entries. -/
theorem lists_iff_entries (hlimit : effectiveLimit limit ≤ 10000)
    (hsize : (s.tables .flowState).pairs.length < 2 ^ 32) :
    Lists limit s message ↔
      ∃ entries, snapshotEntries s = .ok entries ∧ message ∈ (listing entries).filterMap id := by
  -- while the entries stay, the calls of a scan are calls on one table
  have hscans : ∀ entries (hentries : snapshotEntries s = .ok entries) tokens pages,
      ListingScan (fun _ request reply => ∃ warnings s',
        machine.Returns Faultless (listMappings request) s (.ok (reply, warnings)) s') limit 0 [] tokens
        pages ↔
      MappingScan limit (fun _ => ⟨entries, (length_snapshotEntries_le hentries).trans_lt
        (hsize.trans (by decide))⟩) 0 [] tokens pages := by
    intro entries hentries tokens pages
    simp only [answered_iff, hentries, Except.ok.injEq, exists_eq_left', MappingScan]
  constructor
  · rintro ⟨tokens, pages, hmem, hscan⟩
    obtain ⟨entries, hentries⟩ : ∃ entries, snapshotEntries s = .ok entries := by
      cases hscan with
      | last hanswer _ => exact (answered_iff.mp hanswer).imp fun _ h => h.1
      | more hanswer _ _ => exact (answered_iff.mp hanswer).imp fun _ h => h.1
    have hflatten := ((hscans entries hentries tokens pages).mp hscan).flatten hlimit
    exact ⟨entries, hentries, hflatten ▸ hmem⟩
  · rintro ⟨entries, hentries, hmem⟩
    obtain ⟨tokens, pages, hscan⟩ := exists_mappingScan hlimit (.inl ⟨rfl, rfl⟩)
    refine ⟨tokens, pages, ?_, (hscans entries hentries tokens pages).mpr hscan⟩
    rw [hscan.flatten hlimit]
    exact hmem

/-- A scan returns the mappings of the active flows, where every record decodes. -/
theorem lists_iff (hlimit : effectiveLimit limit ≤ 10000)
    (hsize : (s.tables .flowState).pairs.length < 2 ^ 32) :
    Lists limit s message ↔
      Readable s ∧ ∃ key flow, Recorded s key flow ∧ message = mappingToProto flow.mapping := by
  rw [lists_iff_entries hlimit hsize]
  constructor
  · rintro ⟨entries, hentries, hmem⟩
    obtain ⟨entry, hentry, hmessage⟩ := mem_filterMap_listing.mp hmem
    obtain ⟨key, flow, hrecorded, rfl⟩ := (mem_snapshotEntries_iff hentries entry).mp hentry
    rw [entryMessage_entry hrecorded.valid] at hmessage
    exact ⟨exists_snapshotEntries_iff.mp ⟨entries, hentries⟩, key, flow, hrecorded,
      (Option.some.inj hmessage).symm⟩
  · rintro ⟨hreadable, key, flow, hrecorded, rfl⟩
    obtain ⟨entries, hentries⟩ := exists_snapshotEntries_iff.mpr hreadable
    exact ⟨entries, hentries, mem_filterMap_listing.mpr ⟨flow.entry,
      (mem_snapshotEntries_iff hentries _).mpr ⟨key, flow, hrecorded, rfl⟩,
      entryMessage_entry hrecorded.valid⟩⟩

/-! ## Agreement -/

/-- The two ways to read agree about a tuple. -/
def ReadsAgree (limit : UInt32) (s : Maps) (tuple : Tuple) : Prop :=
  ((∃ message, Gets s tuple message) ↔
    ∃ message, Lists limit s message ∧ message.synthetic = some (tupleToProto tuple)) ∧
  ∀ message listed, Gets s tuple message → Lists limit s listed →
    listed.synthetic = some (tupleToProto tuple) → message = listed

/-- A flow that is listed under a tuple is the one the index leads to. -/
theorem Indexed.leads_target (hindexed : Indexed s) (hrecorded : Recorded s key flow) :
    Leads s flow.target flow := by
  obtain ⟨index, hindex, hversion, rfl⟩ := hindexed key flow hrecorded flow.target (by simp)
  obtain ⟨record, hrecord, h⟩ := hrecorded
  exact ⟨index, record, hindex, hversion, hrecord, h⟩

theorem Leads.recorded (h : Leads s tuple flow) : ∃ key, Recorded s key flow := by
  obtain ⟨index, record, -, -, h⟩ := h
  exact ⟨_, record, h⟩

theorem tupleToProto_inj {tuple' : Tuple} (hvalid : tuple.validate = .ok ())
    (hvalid' : tuple'.validate = .ok ()) (h : tupleToProto tuple = tupleToProto tuple') :
    tuple = tuple' := by
  have hfrom := tupleFromProto_tupleToProto hvalid
  rw [h, tupleFromProto_tupleToProto hvalid'] at hfrom
  exact (Except.ok.inj hfrom).symm

/-- **When the two ways to read agree**: a tuple that leads to an active flow has to be the target of
that flow, and then every record has to decode. -/
theorem reads_agree_iff (hindexed : Indexed s) (hlimit : effectiveLimit limit ≤ 10000)
    (hsize : (s.tables .flowState).pairs.length < 2 ^ 32) {tuple : Tuple}
    (hvalid : tuple.validate = .ok ()) :
    ReadsAgree limit s tuple ↔ ∀ flow, Leads s tuple flow → flow.target = tuple ∧ Readable s := by
  -- what is listed under the tuple belongs to the flow the tuple leads to
  have hlisted : ∀ message, Lists limit s message → message.synthetic = some (tupleToProto tuple) →
      Readable s ∧ ∃ flow, Leads s tuple flow ∧ flow.target = tuple ∧
        message = mappingToProto flow.mapping := by
    intro message hlists hsynthetic
    obtain ⟨hreadable, key, flow, hrecorded, rfl⟩ := (lists_iff hlimit hsize).mp hlists
    have htarget : flow.target = tuple :=
      tupleToProto_inj (FlowState.of_validate hrecorded.valid).2.1 hvalid (Option.some.inj hsynthetic)
    exact ⟨hreadable, flow, htarget ▸ hindexed.leads_target hrecorded, htarget, rfl⟩
  have hreported : ∀ flow, flow.target = tuple →
      mappingToProto (mappingFor tuple flow) = mappingToProto flow.mapping := by
    rintro flow rfl
    rfl
  constructor
  · rintro ⟨⟨hgets, -⟩, -⟩ flow hleads
    obtain ⟨message, hlists, hsynthetic⟩ := hgets ⟨_, (gets_iff hvalid).mpr ⟨flow, hleads, rfl⟩⟩
    obtain ⟨hreadable, flow', hleads', htarget, -⟩ := hlisted message hlists hsynthetic
    rw [hleads.unique hleads']
    exact ⟨htarget, hreadable⟩
  · intro hcondition
    refine ⟨⟨?_, ?_⟩, ?_⟩
    · rintro ⟨message, hgets⟩
      obtain ⟨flow, hleads, rfl⟩ := (gets_iff hvalid).mp hgets
      obtain ⟨htarget, hreadable⟩ := hcondition flow hleads
      obtain ⟨key, hrecorded⟩ := hleads.recorded
      exact ⟨_, (lists_iff hlimit hsize).mpr ⟨hreadable, key, flow, hrecorded, hreported flow htarget⟩,
        rfl⟩
    · rintro ⟨message, hlists, hsynthetic⟩
      obtain ⟨-, flow, hleads, -⟩ := hlisted message hlists hsynthetic
      exact ⟨_, (gets_iff hvalid).mpr ⟨flow, hleads, rfl⟩⟩
    · intro message listed hgets hlists hsynthetic
      obtain ⟨flow, hleads, rfl⟩ := (gets_iff hvalid).mp hgets
      obtain ⟨-, flow', hleads', htarget, rfl⟩ := hlisted listed hlists hsynthetic
      rw [hleads.unique hleads']
      exact hreported flow' htarget

/-- Maps with one active flow and its three index entries. -/
def oneFlow : Maps :=
  ((((Maps.initial {}).put .flowIndex (tupleKeyOf (sampleFlow 1).original) (indexOf 1 1)).put .flowIndex
    (tupleKeyOf (sampleFlow 1).target) (indexOf 1 1)).put .flowIndex
    (tupleKeyOf (sampleFlow 1).reverse) (indexOf 1 1)).put .flowState (stateKeyOf 1 1)
    (recordOf (sampleFlow 1))

theorem decode_oneFlow : decodeFlowState (recordOf (sampleFlow 1)).pack = .ok (sampleFlow 1) := by
  decide +kernel

theorem find_oneFlow (key : FlowStateKey) :
    oneFlow.find .flowState key =
      if key = stateKeyOf 1 1 then some (recordOf (sampleFlow 1)) else none := by
  rw [oneFlow, Maps.find_put]
  rfl

theorem readable_oneFlow : Readable oneFlow := by
  intro key record hrecord
  rw [find_oneFlow] at hrecord
  split at hrecord
  · cases hrecord
    exact ⟨_, decode_oneFlow⟩
  · cases hrecord

theorem recorded_oneFlow (h : Recorded oneFlow key flow) :
    key = stateKeyOf 1 1 ∧ flow = sampleFlow 1 := by
  obtain ⟨record, hrecord, hdecode, -⟩ := h
  rw [find_oneFlow] at hrecord
  split at hrecord
  · rename_i hkey
    cases hrecord
    rw [decode_oneFlow] at hdecode
    exact ⟨hkey, (Except.ok.inj hdecode).symm⟩
  · cases hrecord

theorem indexed_oneFlow : Indexed oneFlow := by
  intro key flow hrecorded tuple htuple
  obtain ⟨rfl, rfl⟩ := recorded_oneFlow hrecorded
  refine ⟨indexOf 1 1, ?_, rfl, rfl⟩
  simp only [List.mem_cons, List.not_mem_nil, or_false] at htuple
  rcases htuple with rfl | rfl | rfl <;> rfl

theorem leads_oneFlow (h : oneFlow.find .flowIndex (tupleKeyOf tuple) = some (indexOf 1 1)) :
    Leads oneFlow tuple (sampleFlow 1) :=
  ⟨indexOf 1 1, _, h, rfl, by rw [find_oneFlow]; exact if_pos rfl, decode_oneFlow, rfl⟩

theorem reads_agree_iff_sample : ReadsAgree 0 oneFlow (sampleFlow 1).target := by
  refine (reads_agree_iff indexed_oneFlow (by decide) (by decide) rfl).mpr fun flow hleads => ?_
  rw [hleads.unique (leads_oneFlow rfl)]
  exact ⟨rfl, readable_oneFlow⟩

/-- **A tuple that is not listed is found**: a lookup of the original tuple of a flow succeeds and reports
that tuple as the synthetic one. -/
theorem original_found_not_listed :
    Indexed oneFlow ∧ (sampleFlow 1).original.validate = .ok () ∧
      Gets oneFlow (sampleFlow 1).original
        (mappingToProto (mappingFor (sampleFlow 1).original (sampleFlow 1))) ∧
      ∀ listed, Lists 0 oneFlow listed →
        listed.synthetic ≠ some (tupleToProto (sampleFlow 1).original) := by
  refine ⟨indexed_oneFlow, rfl, (gets_iff rfl).mpr ⟨_, leads_oneFlow rfl, rfl⟩, fun listed hlists => ?_⟩
  obtain ⟨-, key, flow, hrecorded, rfl⟩ := (lists_iff (by decide) (by decide)).mp hlists
  obtain ⟨-, rfl⟩ := recorded_oneFlow hrecorded
  decide

end ShadowSocketProxy.ControlService
