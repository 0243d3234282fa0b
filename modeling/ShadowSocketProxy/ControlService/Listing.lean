import ShadowSocketProxy.ControlService.Enumeration
import ShadowSocketProxy.ControlService.Lookup
import ShadowSocketProxy.Data.Paging

/-! # Listing mappings

`ListMappings` answers page by page from a sorted table. The token of a page is the position at which it
stopped, in the table as it was then; malformed entries count as positions and are skipped. -/

namespace ShadowSocketProxy.ControlService

open Bytes

variable {token : List UInt8} {start i : Nat}

/-! ## Messages -/

namespace Proto

structure ListMappingsRequest where
  limit : UInt32
  pageToken : List UInt8

structure ListMappingsReply where
  mappings : List Mapping
  nextPageToken : List UInt8
  skippedEntries : UInt64
  deriving DecidableEq

end Proto

/-! ## Pages -/

/-- Key and value of an entry of the mapping table. -/
abbrev MappingEntry : Type := List UInt8 × List UInt8

/-- The entry of a flow. -/
def FlowState.entry (flow : FlowState) : MappingEntry :=
  (encodeKey flow.target, encodeValue flow.mapping)

/-- The limit and the position a request asks for; a limit of zero asks for the default. -/
def readListing (request : Proto.ListMappingsRequest) : Except Status (Nat × Nat) :=
  let limit := effectiveLimit request.limit
  if limit > 10000 then .error ⟨.resourceExhausted, "mapping page limit is too large"⟩
  else if request.pageToken.isEmpty then .ok (limit, 0)
  else if request.pageToken.length = 8 then .ok (limit, beAt 8 request.pageToken 0)
  else .error (.invalidArgument "invalid page token")

/-- The message of an entry that decodes. -/
def entryMessage (entry : MappingEntry) : Option Proto.Mapping :=
  match decodeValue entry.1 entry.2 with
  | .ok mapping => some (mappingToProto mapping)
  | .error _ => none

/-- Collect the mappings from a position on up to the limit: the reply, and what is logged about the
entries that were skipped. -/
def collectMappings (limit : Nat) : Nat → List MappingEntry → List Proto.Mapping → UInt64 →
    List String → Proto.ListMappingsReply × List String
  | _, [], mappings, skipped, warnings => (⟨mappings, [], skipped⟩, warnings)
  | index, entry :: entries, mappings, skipped, warnings =>
    if mappings.length ≥ limit then
      (⟨mappings, beBytes 8 (UInt64.ofNat index).toNat, skipped⟩, warnings)
    else
      match decodeValue entry.1 entry.2 with
      | .ok mapping =>
        collectMappings limit (index + 1) entries (mappings ++ [mappingToProto mapping]) skipped
          warnings
      | .error error =>
        collectMappings limit (index + 1) entries mappings (skipped + 1)
          (warnings ++ ["mapping skipped: " ++ error.message])

/-- The entries in the order of their keys. -/
def sortEntries (entries : List MappingEntry) : List MappingEntry :=
  entries.mergeSort fun left right => left.1 ≤ right.1

/-- The page of a table from a position on. -/
def mappingPage (limit offset : Nat) (entries : List MappingEntry) :
    Proto.ListMappingsReply × List String :=
  collectMappings limit offset ((sortEntries entries).drop offset) [] 0 []

/-- The answer to a request from a table. -/
def answerListing (request : Proto.ListMappingsRequest) (entries : List MappingEntry) :
    Except Status (Proto.ListMappingsReply × List String) := do
  let (limit, offset) ← readListing request
  pure (mappingPage limit offset entries)

/-- The entries of the active flows. -/
def listEntries : Host (List MappingEntry) := do
  let flows ← listFlowStates
  pure ((flows.filter fun flow => flow.lifecycle = .active).map FlowState.entry)

/-- The `ListMappings` request: the reply, and what is logged on the way. -/
def listMappings (request : Proto.ListMappingsRequest) :
    Bpf.Prog (Except Status (Proto.ListMappingsReply × List String)) :=
  match readListing request with
  | .error status => pure (.error status)
  | .ok (limit, offset) => do
    let entries ← listEntries.run
    pure (match entries with
      | .error error => .error (mapBackendError error)
      | .ok entries => .ok (mappingPage limit offset entries))

/-! ## Pages as parts of the table -/

/-- A page stops at the end of the entries, or at a position once it is full. -/
theorem collectMappings_spec (limit index : Nat)
    (entries : List MappingEntry) (mappings : List Proto.Mapping) (skipped : UInt64)
    (warnings : List String) :
    ∃ taken ≤ entries.length,
      (collectMappings limit index entries mappings skipped warnings).1.mappings =
          mappings ++ (entries.take taken).filterMap entryMessage ∧
      ((collectMappings limit index entries mappings skipped warnings).1.nextPageToken = [] ∧
          taken = entries.length ∨
        (collectMappings limit index entries mappings skipped warnings).1.nextPageToken =
            beBytes 8 (UInt64.ofNat (index + taken)).toNat ∧ taken < entries.length ∧
          (mappings.length < limit → 0 < taken)) := by
  induction entries generalizing index mappings skipped warnings with
  | nil => exact ⟨0, Nat.le_refl _, (List.append_nil _).symm, .inl ⟨rfl, rfl⟩⟩
  | cons entry entries ih =>
    rw [collectMappings]
    split
    · rename_i hfull
      exact ⟨0, Nat.zero_le _, (List.append_nil _).symm,
        .inr ⟨rfl, Nat.zero_lt_succ _, fun hroom => absurd hfull (Nat.not_le.mpr hroom)⟩⟩
    · -- one entry is taken, and the rest of the page is that of the rest
      have hnext : ∀ mappings' skipped' warnings',
          mappings' = mappings ++ [entry].filterMap entryMessage →
          ∃ taken ≤ (entry :: entries).length,
            (collectMappings limit (index + 1) entries mappings' skipped' warnings').1.mappings =
                mappings ++ ((entry :: entries).take taken).filterMap entryMessage ∧
            ((collectMappings limit (index + 1) entries mappings' skipped' warnings').1.nextPageToken =
                [] ∧ taken = (entry :: entries).length ∨
              (collectMappings limit (index + 1) entries mappings' skipped' warnings').1.nextPageToken =
                  beBytes 8 (UInt64.ofNat (index + taken)).toNat ∧
                taken < (entry :: entries).length ∧ (mappings.length < limit → 0 < taken)) := by
        intro mappings' skipped' warnings' hmappings
        obtain ⟨taken, hle, hpage, htoken⟩ := ih (index + 1) mappings' skipped' warnings'
        refine ⟨taken + 1, Nat.succ_le_succ hle, ?_, ?_⟩
        · rw [hpage, hmappings, List.append_assoc, ← List.filterMap_append, List.take_succ_cons]
          rfl
        · rcases htoken with ⟨hnil, hall⟩ | ⟨htoken, hlt, -⟩
          · exact .inl ⟨hnil, congrArg (· + 1) hall⟩
          · have hindex : index + 1 + taken = index + (taken + 1) := by omega
            rw [hindex] at htoken
            exact .inr ⟨htoken, Nat.succ_lt_succ hlt, fun _ => Nat.succ_pos _⟩
      cases hdecode : decodeValue entry.1 entry.2 with
      | ok mapping => exact hnext _ _ _ (by simp [entryMessage, hdecode])
      | error error => exact hnext _ _ _ (by simp [entryMessage, hdecode])

/-- The messages of a table in the order of the keys; a malformed entry has none. -/
def listing (entries : List MappingEntry) : List (Option Proto.Mapping) :=
  (sortEntries entries).map entryMessage

/-- The entry of a valid flow has its message. -/
theorem entryMessage_entry {flow : FlowState} (hvalid : flow.validate = .ok ()) :
    entryMessage flow.entry = some (mappingToProto flow.mapping) := by
  obtain ⟨horiginal, htarget, -⟩ := FlowState.of_validate hvalid
  have hvalue : decodeValue flow.entry.1 flow.entry.2 = .ok flow.mapping :=
    @decodeValue_encodeValue flow.mapping (Tuple.isIpv4_of_validate htarget)
      (Tuple.isIpv4_of_validate horiginal)
  rw [entryMessage, hvalue]

/-- What is returned of a part of the listing. -/
theorem filterMap_id_map (l : List MappingEntry) :
    (l.map entryMessage).filterMap id = l.filterMap entryMessage := by
  rw [List.filterMap_map]
  rfl

variable {entries : List MappingEntry} {table : MappingTable}

theorem mem_filterMap_listing {message : Proto.Mapping} :
    message ∈ (listing entries).filterMap id ↔ ∃ entry ∈ entries, entryMessage entry = some message := by
  rw [listing, filterMap_id_map, List.mem_filterMap]
  simp only [sortEntries, List.mem_mergeSort]

theorem count_filterMap_id (l : List (Option Proto.Mapping)) (message : Proto.Mapping) :
    (l.filterMap id).count message = l.count (some message) := by
  induction l with
  | nil => rfl
  | cons entry l ih =>
    cases entry with
    | none =>
      rw [List.filterMap_cons_none rfl, ih, List.count_cons_of_ne]
      rintro ⟨⟩
    | some other =>
      have hcons : (some other :: l).filterMap id = other :: l.filterMap id := rfl
      rw [hcons, List.count_cons, List.count_cons, ih]
      simp

theorem beBytes_ne_nil (n : Nat) : beBytes 8 n ≠ [] := by
  intro h
  have hlength := length_beBytes 8 n
  rw [h] at hlength
  cases hlength

/-- A token of eight bytes names a position. -/
theorem readListing_token {limit : UInt32} (hlimit : effectiveLimit limit ≤ 10000) {n : Nat}
    (hn : n < 2 ^ 64) :
    readListing ⟨limit, beBytes 8 n⟩ = .ok (effectiveLimit limit, n) := by
  have hread : beAt 8 (beBytes 8 n) 0 = n := beAt_beBytes hn
  have hlength : (beBytes 8 n).length = 8 := length_beBytes 8 n
  have hnonempty : ¬ (beBytes 8 n).isEmpty := by
    rw [List.isEmpty_iff]
    exact beBytes_ne_nil n
  unfold readListing
  rw [if_neg (Nat.not_lt.mpr hlimit), if_neg hnonempty, if_pos hlength, hread]

/-- A page of a table from a position on, with its token. -/
theorem mappingPage_spec {limit : Nat} (offset : Nat) (hlimit : 0 < limit)
    (hsize : entries.length < 2 ^ 64) :
    ∃ next ≤ entries.length,
      ((mappingPage limit offset entries).1.nextPageToken = [] ∧
          (mappingPage limit offset entries).1.mappings =
            ((listing entries).drop offset).filterMap id) ∨
        ((mappingPage limit offset entries).1.nextPageToken = beBytes 8 next ∧ offset < next ∧
          (mappingPage limit offset entries).1.mappings =
            (((listing entries).take next).drop offset).filterMap id) := by
  obtain ⟨taken, hle, hpage, htoken⟩ :=
    collectMappings_spec limit offset ((sortEntries entries).drop offset) [] 0 []
  have hlength : ((sortEntries entries).drop offset).length = entries.length - offset := by
    rw [List.length_drop, sortEntries, List.length_mergeSort]
  rw [List.nil_append] at hpage
  rcases htoken with ⟨hnil, rfl⟩ | ⟨htoken, hlt, hpos⟩
  · refine ⟨entries.length, Nat.le_refl _, .inl ⟨hnil, ?_⟩⟩
    rw [mappingPage, hpage, List.take_length, listing, ← List.map_drop, filterMap_id_map]
  · rw [hlength] at hlt
    have hnext : offset + taken < 2 ^ 64 := by omega
    have hword : (UInt64.ofNat (offset + taken)).toNat = offset + taken :=
      UInt64.toNat_ofNat_of_lt' hnext
    have htaken : 0 < taken := hpos hlimit
    rw [hword] at htoken
    refine ⟨offset + taken, by omega, .inr ⟨htoken, by omega, ?_⟩⟩
    rw [mappingPage, hpage, listing, ← List.map_take, ← List.map_drop, filterMap_id_map,
      List.drop_take, Nat.add_sub_cancel_left]

/-! ## Scans -/

/-- The contents of the mapping table; how many entries there are is a `usize`. -/
abbrev MappingTable : Type := {entries : List MappingEntry // entries.length < 2 ^ 64}

/-- `ListingScan answers limit i token tokens pages`: from the call `i` on, where `answers i` says what a
request is answered, a client with the given token gets the given pages and the tokens between them, up
to the first page with an empty token. -/
inductive ListingScan (answers : Nat → Proto.ListMappingsRequest → Proto.ListMappingsReply → Prop)
    (limit : UInt32) : Nat → List UInt8 → List (List UInt8) → List (List Proto.Mapping) → Prop
  | last {i : Nat} {token : List UInt8} {reply : Proto.ListMappingsReply}
      (h : answers i ⟨limit, token⟩ reply) (hend : reply.nextPageToken = []) :
      ListingScan answers limit i token [] [reply.mappings]
  | more {i : Nat} {token : List UInt8} {reply : Proto.ListMappingsReply}
      {tokens : List (List UInt8)} {pages : List (List Proto.Mapping)}
      (h : answers i ⟨limit, token⟩ reply) (hmore : reply.nextPageToken ≠ [])
      (hrest : ListingScan answers limit (i + 1) reply.nextPageToken tokens pages) :
      ListingScan answers limit i token (reply.nextPageToken :: tokens) (reply.mappings :: pages)

/-- A scan of which the call `i` finds the table `tables i`. -/
def MappingScan (limit : UInt32) (tables : Nat → MappingTable) :
    Nat → List UInt8 → List (List UInt8) → List (List Proto.Mapping) → Prop :=
  ListingScan (fun i request reply => ∃ warnings,
    answerListing request (tables i).1 = .ok (reply, warnings)) limit

variable {limit : UInt32} {tables : Nat → MappingTable}

/-- A token that a scan passes back, with the position it names. -/
def TokenAt (token : List UInt8) (n : Nat) : Prop :=
  token = [] ∧ n = 0 ∨ token = beBytes 8 n ∧ n < 2 ^ 64

section

variable (hlimit : effectiveLimit limit ≤ 10000)

include hlimit

theorem answerListing_eq {n : Nat} (htoken : TokenAt token n) (entries : List MappingEntry) :
    answerListing ⟨limit, token⟩ entries = .ok (mappingPage (effectiveLimit limit) n entries) := by
  rw [answerListing]
  rcases htoken with ⟨rfl, rfl⟩ | ⟨rfl, hn⟩
  · have hread : readListing ⟨limit, []⟩ = .ok (effectiveLimit limit, 0) := by
      rw [readListing]
      exact if_neg (Nat.not_lt.mpr hlimit)
    rw [hread]
    rfl
  · rw [readListing_token hlimit hn]
    rfl

/-- An answer to a token is the rest of the listing, or a part of it that ends where its token says. -/
theorem answerListing_spec (htoken : TokenAt token start)
    {reply : Proto.ListMappingsReply} {warnings : List String}
    (h : answerListing ⟨limit, token⟩ table.1 = .ok (reply, warnings)) :
    reply.nextPageToken = [] ∧ reply.mappings = ((listing table.1).drop start).filterMap id ∨
      ∃ next, start < next ∧ next ≤ table.1.length ∧ reply.nextPageToken = beBytes 8 next ∧
        reply.mappings = (((listing table.1).take next).drop start).filterMap id := by
  rw [answerListing_eq hlimit htoken] at h
  have hreply : (mappingPage (effectiveLimit limit) start table.1).1 = reply :=
    congrArg Prod.fst (Except.ok.inj h)
  obtain ⟨next, hle, hspec⟩ := mappingPage_spec start (pos_effectiveLimit limit) table.2
  rw [hreply] at hspec
  rcases hspec with hend | ⟨hnext, hlt, hpage⟩
  · exact .inl hend
  · exact .inr ⟨next, hlt, hle, hnext, hpage⟩

/-- The pages a client gets are pages by position of the listings. -/
theorem MappingScan.positions {tokens : List (List UInt8)}
    {pages : List (List Proto.Mapping)} (hscan : MappingScan limit tables i token tokens pages)
    (htoken : TokenAt token start) :
    ∃ parts, Paging.PositionScan (fun i => listing (tables i).1) i start (tokens.map (beAt 8 · 0)) parts ∧
      pages = parts.map (·.filterMap id) := by
  induction hscan generalizing start with
  | @last i token reply hanswer hend =>
    obtain ⟨warnings, hanswer⟩ := hanswer
    rcases answerListing_spec hlimit htoken hanswer with ⟨-, hpage⟩ | ⟨next, -, -, hnext, -⟩
    · refine ⟨[(listing (tables i).1).drop start], .last, ?_⟩
      rw [hpage]
      rfl
    · rw [hend] at hnext
      exact absurd hnext.symm (beBytes_ne_nil next)
  | @more i token reply tokens pages hanswer hmore hrest ih =>
    obtain ⟨warnings, hanswer⟩ := hanswer
    rcases answerListing_spec hlimit htoken hanswer with
      ⟨hend, -⟩ | ⟨next, hlt, hle, hnext, hpage⟩
    · exact absurd hend hmore
    · have hfits : next < 2 ^ 64 := Nat.lt_of_le_of_lt hle (tables i).2
      obtain ⟨parts, hparts, rfl⟩ := ih (.inr ⟨hnext, hfits⟩)
      have hread : beAt 8 reply.nextPageToken 0 = next := by rw [hnext, beAt_beBytes hfits]
      refine ⟨((listing (tables i).1).take next).drop start :: parts, ?_, ?_⟩
      · rw [List.map_cons, hread]
        exact .more (Nat.le_of_lt hlt) hparts
      · rw [List.map_cons, hpage]

/-- A table that stays the same is scanned to its end. -/
theorem exists_mappingScan (htoken : TokenAt token start) :
    ∃ tokens pages, MappingScan limit (fun _ => table) i token tokens pages := by
  -- every page but the last moves the position towards the end of the table
  induction hleft : table.1.length - start using Nat.strong_induction_on generalizing i token start with
  | _ left ih =>
    have hanswer := answerListing_eq hlimit htoken table.1
    rcases answerListing_spec hlimit htoken hanswer with ⟨hend, -⟩ | ⟨next, hlt, hle, hnext, -⟩
    · exact ⟨_, _, .last ⟨_, hanswer⟩ hend⟩
    · have hfits : next < 2 ^ 64 := Nat.lt_of_le_of_lt hle table.2
      obtain ⟨tokens, pages, hrest⟩ :=
        ih (table.1.length - next) (by omega) (.inr ⟨hnext, hfits⟩) rfl
      exact ⟨_, _, .more ⟨_, hanswer⟩ (hnext ▸ beBytes_ne_nil next) hrest⟩

/-- A scan of a table that stays the same returns the messages of its entries. -/
theorem MappingScan.flatten {tokens : List (List UInt8)} {pages : List (List Proto.Mapping)}
    (hscan : MappingScan limit (fun _ => table) i [] tokens pages) :
    pages.flatten = (listing table.1).filterMap id := by
  obtain ⟨parts, hparts, rfl⟩ := hscan.positions hlimit (.inl ⟨rfl, rfl⟩)
  have hparts : parts.flatten = listing table.1 := hparts.flatten
  rw [← hparts, List.filterMap_flatten]

end

theorem count_flatten_filterMap (parts : List (List (Option Proto.Mapping))) (message : Proto.Mapping) :
    (parts.map (·.filterMap id)).flatten.count message = parts.flatten.count (some message) := by
  induction parts with
  | nil => rfl
  | cons part parts ih =>
    rw [List.map_cons, List.flatten_cons, List.flatten_cons, List.count_append, List.count_append, ih,
      count_filterMap_id]

/-- **What a scan returns of a mapping that stays**: a mapping with one entry in every table of a
scan is returned once if and only if, between two pages, it slips from behind the position of the token
to its front as often as the other way. -/
theorem mapping_scan_returns_once (hlimit : effectiveLimit limit ≤ 10000) {tokens : List (List UInt8)}
    {pages : List (List Proto.Mapping)} (hscan : MappingScan limit tables 0 [] tokens pages)
    {message : Proto.Mapping}
    (hstays : ∀ i < pages.length, (listing (tables i).1).count (some message) = 1) :
    pages.flatten.count message = 1 ↔
      Paging.slipsFront (fun i => listing (tables i).1) (some message) 0 (tokens.map (beAt 8 · 0)) =
        Paging.slipsBehind (fun i => listing (tables i).1) (some message) 0
          (tokens.map (beAt 8 · 0)) := by
  obtain ⟨parts, hparts, rfl⟩ := hscan.positions hlimit (.inl ⟨rfl, rfl⟩)
  rw [List.length_map] at hstays
  have hcount := hparts.count fun j hj => by
    rw [Nat.zero_add]
    exact hstays j hj
  rw [List.take_zero, if_neg List.not_mem_nil] at hcount
  rw [count_flatten_filterMap]
  omega

/-- Entries that are in order stay so. -/
theorem sortEntries_of_pairwise (h : entries.Pairwise fun left right => left.1 ≤ right.1) :
    sortEntries entries = entries := by
  refine List.mergeSort_of_pairwise ?_
  simpa only [decide_eq_true_eq] using h

/-- A second flow, whose target comes after that of the first. -/
def laterFlow : FlowState :=
  { sampleFlow 2 with target := ⟨.v4 (Bpf.ipv4 10 0 0 1), .v4 (Bpf.ipv4 10 0 0 4), 17, 1000, 3000⟩ }

/-- The entries of two flows. -/
def bothListed : MappingTable := ⟨[(sampleFlow 1).entry, laterFlow.entry], by decide⟩

/-- The entries once the first flow is gone. -/
def laterListed : MappingTable := ⟨[laterFlow.entry], by decide⟩

theorem sortEntries_bothListed : sortEntries bothListed.1 = bothListed.1 :=
  sortEntries_of_pairwise (by decide +kernel)

theorem sortEntries_laterListed : sortEntries laterListed.1 = laterListed.1 :=
  sortEntries_of_pairwise (List.pairwise_singleton _ _)

theorem firstPage_bothListed : mappingPage 1 0 bothListed.1 =
    (⟨[mappingToProto (sampleFlow 1).mapping], beBytes 8 1, 0⟩, []) := by
  rw [mappingPage, sortEntries_bothListed]
  decide +kernel

theorem secondPage_bothListed : mappingPage 1 1 bothListed.1 =
    (⟨[mappingToProto laterFlow.mapping], [], 0⟩, []) := by
  rw [mappingPage, sortEntries_bothListed]
  decide +kernel

theorem count_bothListed :
    (listing bothListed.1).count (some (mappingToProto laterFlow.mapping)) = 1 := by
  rw [listing, sortEntries_bothListed]
  decide +kernel

theorem count_laterListed :
    (listing laterListed.1).count (some (mappingToProto laterFlow.mapping)) = 1 := by
  rw [listing, sortEntries_laterListed]
  decide +kernel

theorem mapping_scan_returns_once_sample : ∃ tokens pages,
    MappingScan 1 (fun _ => bothListed) 0 [] tokens pages ∧
      pages.flatten.count (mappingToProto laterFlow.mapping) = 1 := by
  have hfirst : answerListing ⟨1, []⟩ bothListed.1 = .ok (mappingPage 1 0 bothListed.1) :=
    answerListing_eq (by decide) (.inl ⟨rfl, rfl⟩) bothListed.1
  have hsecond : answerListing ⟨1, beBytes 8 1⟩ bothListed.1 = .ok (mappingPage 1 1 bothListed.1) :=
    answerListing_eq (by decide) (.inr ⟨rfl, by decide⟩) bothListed.1
  have hscan : MappingScan 1 (fun _ => bothListed) 0 [] _ _ :=
    .more ⟨_, hfirst.trans (congrArg _ firstPage_bothListed)⟩ (beBytes_ne_nil 1)
      (.last ⟨_, hsecond.trans (congrArg _ secondPage_bothListed)⟩ rfl)
  refine ⟨_, _, hscan, (mapping_scan_returns_once (by decide) hscan fun _ _ => count_bothListed).mpr ?_⟩
  -- the table stays as it is, and so does the mapping's position
  simp [Paging.slipsFront, Paging.slipsBehind]

/-- **A mapping that stays is left out**: between two pages of one mapping each the first flow goes, and
the second moves to the front of the token's position. -/
theorem mapping_scan_leaves_out : ∃ tokens pages,
    MappingScan 1 (fun i => if i = 0 then bothListed else laterListed) 0 [] tokens pages ∧
      (∀ i < pages.length, (listing (if i = 0 then bothListed else laterListed).1).count
        (some (mappingToProto laterFlow.mapping)) = 1) ∧
      pages.flatten.count (mappingToProto laterFlow.mapping) = 0 := by
  have hfirst : answerListing ⟨1, []⟩ bothListed.1 = .ok (mappingPage 1 0 bothListed.1) :=
    answerListing_eq (by decide) (.inl ⟨rfl, rfl⟩) bothListed.1
  have hsecond : answerListing ⟨1, beBytes 8 1⟩ laterListed.1 = .ok (mappingPage 1 1 laterListed.1) :=
    answerListing_eq (by decide) (.inr ⟨rfl, by decide⟩) laterListed.1
  have hrest : mappingPage 1 1 laterListed.1 = (⟨[], [], 0⟩, []) := by
    rw [mappingPage, sortEntries_laterListed]
    rfl
  refine ⟨_, _, .more ⟨_, hfirst.trans (congrArg _ firstPage_bothListed)⟩ (beBytes_ne_nil 1)
    (.last ⟨_, hsecond.trans (congrArg _ hrest)⟩ rfl), fun i _ => ?_, by decide +kernel⟩
  split
  · exact count_bothListed
  · exact count_laterListed

end ShadowSocketProxy.ControlService
