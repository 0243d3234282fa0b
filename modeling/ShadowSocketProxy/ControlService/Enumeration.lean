import ShadowSocketProxy.ControlService.Messages
import ShadowSocketProxy.Data.Paging
import Mathlib.Data.Prod.Lex
import Mathlib.Data.Fintype.Prod
import Mathlib.Order.Fin.Basic

/-! # Enumerating flows

`EnumerateFlows` answers page by page. The token of a page is a cursor of 32 bytes: the instance of the
service, the time at which the scan began, and the last flow returned. Flows may come and go between
the pages. -/

namespace ShadowSocketProxy.ControlService

open Bytes

variable {token : List UInt8} {i : Nat}

/-! ## Cursors -/

/-- The identity of a flow, ordered by number and then by generation. -/
abbrev Identity : Type := Fin (2 ^ 64) ×ₗ Fin (2 ^ 32)

/-- The identity a number and a generation make. -/
def identity (flowId : UInt64) (generation : UInt32) : Identity :=
  toLex (flowId.toFin, generation.toFin)

/-- The position of a scan. -/
structure FlowCursor where
  nonce : UInt64
  issuedNs : UInt64
  flowId : UInt64
  generation : UInt32

namespace FlowCursor

/-- The last flow returned. -/
def identity (cursor : FlowCursor) : Identity :=
  ControlService.identity cursor.flowId cursor.generation

/-- The token of a cursor. -/
def encode (cursor : FlowCursor) : List UInt8 :=
  beBytes 8 cursor.nonce.toNat ++ beBytes 8 cursor.issuedNs.toNat ++ beBytes 8 cursor.flowId.toNat ++
    beBytes 4 cursor.generation.toNat ++ List.replicate 4 0

/-- The cursor of a token. -/
def decode (bytes : List UInt8) : Except Status FlowCursor :=
  if bytes.length ≠ 32 then .error (.invalidArgument "invalid flow page token")
  else .ok
    { nonce := UInt64.ofNat (beAt 8 bytes 0)
      issuedNs := UInt64.ofNat (beAt 8 bytes 8)
      flowId := UInt64.ofNat (beAt 8 bytes 16)
      generation := UInt32.ofNat (beAt 4 bytes 24) }

/-- A token stands for its cursor. -/
theorem decode_encode (cursor : FlowCursor) : decode cursor.encode = .ok cursor := by
  obtain ⟨nonce, issuedNs, flowId, generation⟩ := cursor
  have hnonce : nonce.toNat < 256 ^ 8 := nonce.toNat_lt
  have hissued : issuedNs.toNat < 256 ^ 8 := issuedNs.toNat_lt
  have hflowId : flowId.toNat < 256 ^ 8 := flowId.toNat_lt
  have hgeneration : generation.toNat < 256 ^ 4 := generation.toNat_lt
  rw [decode, if_neg (by simp [encode])]
  simp (disch := simp) only [encode, beAt_append_left, beAt_append_right, List.length_append,
    length_beBytes, Nat.reduceAdd, Nat.reduceSub, beAt_beBytes hnonce, beAt_beBytes hissued,
    beAt_beBytes hflowId, beAt_beBytes hgeneration, UInt64.ofNat_toNat, UInt32.ofNat_toNat]

theorem encode_ne_nil (cursor : FlowCursor) : cursor.encode ≠ [] := by
  intro h
  have hlength := congrArg List.length h
  simp [encode] at hlength

end FlowCursor

/-! ## Pages -/

/-- The identity of a flow state. -/
def FlowState.identity (flow : FlowState) : Identity :=
  ControlService.identity flow.flowId flow.generation

/-- The identity of a flow message. -/
def Proto.Flow.identity (flow : Proto.Flow) : Identity :=
  ControlService.identity flow.flowId flow.generation

/-- The number of flows a page may have; zero asks for the default. -/
def effectiveLimit (limit : UInt32) : Nat := if limit = 0 then 256 else limit.toNat

/-- The cursor of a request; a token has to come from this instance, and within a minute. -/
def readCursor (nonce now : UInt64) (token : List UInt8) : Except Status (Option FlowCursor) :=
  if token.isEmpty then .ok none
  else do
    let cursor ← FlowCursor.decode token
    if cursor.nonce ≠ nonce ∨ cursor.issuedNs > now ∨
        now.toNat - cursor.issuedNs.toNat > 60000000000 then
      .error (.failedPrecondition "flow page token expired or belongs to another service")
    else pure (some cursor)

/-- Collect the flows behind the cursor up to the limit, which is not zero. -/
def collectFlows (nonce observedNow : UInt64) (limit : Nat) (cursor : Option FlowCursor) :
    List FlowState → List Proto.Flow → Proto.EnumerateFlowsReply
  | [], result => ⟨result, []⟩
  | flow :: flows, result =>
    if cursor.any fun cursor => flow.identity ≤ cursor.identity then
      collectFlows nonce observedNow limit cursor flows result
    else if result.length ≥ limit then
      match result.getLast? with
      | none => ⟨result, []⟩
      | some last =>
        { flows := result
          nextPageToken := FlowCursor.encode
            { nonce := nonce
              issuedNs := (cursor.map (·.issuedNs)).getD observedNow
              flowId := last.flowId
              generation := last.generation } }
    else
      collectFlows nonce observedNow limit cursor flows (result ++ [flowToProto flow observedNow])

/-- The flow states in the order of their identities. -/
def sortFlows (flows : List FlowState) : List FlowState :=
  flows.mergeSort fun a b => a.identity ≤ b.identity

/-- The `EnumerateFlows` request: when it came, when the flows were listed, and what was listed. -/
def enumerateFlows (nonce now observedNow : UInt64) (request : Proto.EnumerateFlowsRequest)
    (listed : Except BackendError (List FlowState)) : Except Status Proto.EnumerateFlowsReply := do
  if effectiveLimit request.limit > 10000 then
    .error ⟨.resourceExhausted, "flow page limit is too large"⟩
  else do
    let cursor ← readCursor nonce now request.pageToken
    match listed with
    | .error error => .error (mapBackendError error)
    | .ok flows =>
      pure (collectFlows nonce observedNow (effectiveLimit request.limit) cursor (sortFlows flows) [])

/-! ## Pages as parts of a sorted list -/

/-- A token says where to go on: at the end it is empty. -/
def TokenFor (nonce issued : UInt64) (token : List UInt8) : Option Identity → Prop
  | none => token = []
  | some next => ∃ cursor : FlowCursor, token = cursor.encode ∧ cursor.nonce = nonce ∧
      cursor.issuedNs = issued ∧ cursor.identity = next

variable {key : Option Identity}

/-- The token at the end, and only that one, is empty. -/
theorem TokenFor.eq_nil_iff {nonce issued : UInt64} (h : TokenFor nonce issued token key) :
    token = [] ↔ key = none := by
  cases key with
  | none => exact ⟨fun _ => rfl, fun _ => h⟩
  | some next =>
    obtain ⟨cursor, rfl, -⟩ := h
    exact ⟨fun habsurd => absurd habsurd cursor.encode_ne_nil, fun habsurd => (nomatch habsurd)⟩

theorem pos_effectiveLimit (limit : UInt32) : 0 < effectiveLimit limit := by
  rw [effectiveLimit]
  split
  · decide
  · rename_i h
    exact Nat.pos_of_ne_zero fun hzero => h (UInt32.toNat_inj.mp hzero)

/-- Whether the loop passes a flow over is whether it is not behind the cursor. -/
theorem beyond_cons (cursor : Option FlowCursor) (flow : FlowState) (flows : List FlowState) :
    Paging.beyond (cursor.map FlowCursor.identity) ((flow :: flows).map FlowState.identity) =
      if cursor.any fun cursor => flow.identity ≤ cursor.identity then
        Paging.beyond (cursor.map FlowCursor.identity) (flows.map FlowState.identity)
      else flow.identity ::
        Paging.beyond (cursor.map FlowCursor.identity) (flows.map FlowState.identity) := by
  rw [Paging.beyond, List.map_cons, List.filter_cons]
  cases cursor with
  | none => rfl
  | some cursor =>
    simp only [Option.map_some, Option.all_some, decide_eq_true_eq, Option.any_some]
    by_cases hle : flow.identity ≤ cursor.identity
    · rw [if_neg (not_lt.mpr hle), if_pos hle]
      rfl
    · rw [if_pos (not_le.mp hle), if_neg hle]
      rfl

/-- Collecting cuts off the flows behind the cursor at the limit. -/
theorem collectFlows_spec (nonce observedNow : UInt64) {limit : Nat} (hlimit : 0 < limit)
    (cursor : Option FlowCursor) (flows : List FlowState) (result : List Proto.Flow)
    (hresult : result.length ≤ limit) :
    (collectFlows nonce observedNow limit cursor flows result).flows.map Proto.Flow.identity =
        (Paging.cut limit (result.map Proto.Flow.identity ++
          Paging.beyond (cursor.map FlowCursor.identity) (flows.map FlowState.identity))).1 ∧
      TokenFor nonce ((cursor.map (·.issuedNs)).getD observedNow)
        (collectFlows nonce observedNow limit cursor flows result).nextPageToken
        (Paging.cut limit (result.map Proto.Flow.identity ++
          Paging.beyond (cursor.map FlowCursor.identity) (flows.map FlowState.identity))).2 := by
  induction flows generalizing result with
  | nil =>
    have hcut : Paging.cut limit (result.map Proto.Flow.identity ++
        Paging.beyond (cursor.map FlowCursor.identity) (([] : List FlowState).map FlowState.identity)) =
        (result.map Proto.Flow.identity, none) := by
      rw [List.map_nil, Paging.beyond, List.filter_nil, List.append_nil, Paging.cut,
        if_pos (by simpa using hresult)]
    rw [hcut]
    exact ⟨rfl, rfl⟩
  | cons flow flows ih =>
    rw [beyond_cons, collectFlows]
    split
    · exact ih result hresult
    · split
      · -- The page is full, and there is at least this flow behind it.
        rename_i hfull
        have hlength : (result.map Proto.Flow.identity).length = limit := by
          rw [List.length_map]
          omega
        rw [Paging.cut, if_neg (by simp; omega), List.take_left' hlength]
        cases hlast : result.getLast? with
        | none =>
          rw [List.getLast?_eq_none_iff.mp hlast] at hlength
          simp at hlength
          omega
        | some last =>
          rw [List.getLast?_map, hlast]
          exact ⟨rfl, _, rfl, rfl, rfl, rfl⟩
      · rename_i hroom
        have hnext := ih (result ++ [flowToProto flow observedNow]) (by simp; omega)
        rw [List.map_append, List.append_assoc] at hnext
        exact hnext

/-! ## Scans -/

/-- One call of a scan: the limit it asks for, when it comes, when the flows are listed, and which
there are. -/
structure FlowCall where
  limit : UInt32
  now : UInt64
  observedNow : UInt64
  flows : List FlowState

/-- The answer to a call with a token. -/
def FlowCall.answer (nonce : UInt64) (call : FlowCall) (token : List UInt8) :
    Except Status Proto.EnumerateFlowsReply :=
  enumerateFlows nonce call.now call.observedNow ⟨call.limit, token⟩ (.ok call.flows)

/-- `FlowScan nonce calls i token pages`: from the call `i` on, a client with the given token gets the
given pages, up to the first with an empty token. -/
inductive FlowScan (nonce : UInt64) (calls : Nat → FlowCall) :
    Nat → List UInt8 → List (List Proto.Flow) → Prop
  | last {i : Nat} {token : List UInt8} {reply : Proto.EnumerateFlowsReply}
      (h : (calls i).answer nonce token = .ok reply) (hend : reply.nextPageToken = []) :
      FlowScan nonce calls i token [reply.flows]
  | more {i : Nat} {token : List UInt8} {reply : Proto.EnumerateFlowsReply}
      {pages : List (List Proto.Flow)} (h : (calls i).answer nonce token = .ok reply)
      (hmore : reply.nextPageToken ≠ []) (hrest : FlowScan nonce calls (i + 1) reply.nextPageToken pages) :
      FlowScan nonce calls i token (reply.flows :: pages)

/-- The calls of one scan: at most 10000 flows a page, no flow listed twice, and every later call
within a minute of the first page. -/
structure Timely (calls : Nat → FlowCall) : Prop where
  limit : ∀ i, effectiveLimit (calls i).limit ≤ 10000
  nodup : ∀ i, ((calls i).flows.map FlowState.identity).Nodup
  order : ∀ i, 0 < i → (calls 0).observedNow ≤ (calls i).now
  minute : ∀ i, 0 < i → (calls i).now.toNat - (calls 0).observedNow.toNat ≤ 60000000000

/-- The identities a call lists, in order. -/
def FlowCall.identities (call : FlowCall) : List Identity :=
  (sortFlows call.flows).map FlowState.identity

variable {nonce : UInt64} {calls : Nat → FlowCall}

theorem mem_identities {call : FlowCall} {k : Identity} :
    k ∈ call.identities ↔ ∃ flow ∈ call.flows, flow.identity = k := by
  rw [FlowCall.identities, List.mem_map]
  simp only [sortFlows, List.mem_mergeSort]

theorem pairwise_identities {call : FlowCall} (h : (call.flows.map FlowState.identity).Nodup) :
    call.identities.Pairwise (· < ·) := by
  have hle : (sortFlows call.flows).Pairwise fun a b => a.identity ≤ b.identity := by
    have hsorted := @List.pairwise_mergeSort _
      (fun a b : FlowState => decide (a.identity ≤ b.identity))
      (by simpa using fun a b c => le_trans) (by simpa using fun a b => le_total _ _) call.flows
    exact hsorted.imp of_decide_eq_true
  have hnodup : call.identities.Nodup := by
    rw [FlowCall.identities]
    exact ((List.mergeSort_perm _ _).map _).nodup_iff.mpr h
  rw [FlowCall.identities] at hnodup ⊢
  have hle' : ((sortFlows call.flows).map FlowState.identity).Pairwise (· ≤ ·) := hle.map _ fun _ _ h => h
  exact (hle'.and hnodup).imp fun h => lt_of_le_of_ne h.1 h.2

/-- **A page is a page of the identities listed**, and its token tells where to go on. -/
theorem answer_spec (hcalls : Timely calls)
    (htoken : TokenFor nonce (calls 0).observedNow token key) (hstart : key = none → i = 0)
    (hlater : key ≠ none → 0 < i) :
    ∃ reply, (calls i).answer nonce token = .ok reply ∧
      reply.flows.map Proto.Flow.identity =
        (Paging.page (effectiveLimit (calls i).limit) key (calls i).identities).1 ∧
      TokenFor nonce (calls 0).observedNow reply.nextPageToken
        (Paging.page (effectiveLimit (calls i).limit) key (calls i).identities).2 := by
  have hread : ∃ cursor : Option FlowCursor, readCursor nonce (calls i).now token = .ok cursor ∧
      cursor.map FlowCursor.identity = key ∧
      (cursor.map (·.issuedNs)).getD (calls i).observedNow = (calls 0).observedNow := by
    cases key with
    | none =>
      obtain rfl : token = [] := htoken
      obtain rfl := hstart rfl
      exact ⟨none, rfl, rfl, rfl⟩
    | some next =>
      obtain ⟨cursor, rfl, hnonce, hissued, rfl⟩ := htoken
      have hi := hlater (by simp)
      refine ⟨some cursor, ?_, rfl, hissued⟩
      have horder : ¬ (calls i).now < cursor.issuedNs := by
        rw [hissued, UInt64.not_lt]
        exact hcalls.order i hi
      have hminute := hcalls.minute i hi
      rw [← hissued] at hminute
      rw [readCursor, if_neg (by simpa using cursor.encode_ne_nil), FlowCursor.decode_encode]
      refine if_neg ?_
      rintro (h | h | h)
      · exact h hnonce
      · exact horder h
      · omega
  obtain ⟨cursor, hcursor, rfl, hissued⟩ := hread
  have hspec := collectFlows_spec nonce (calls i).observedNow (pos_effectiveLimit (calls i).limit) cursor
    (sortFlows (calls i).flows) [] (Nat.zero_le _)
  rw [hissued, List.map_nil, List.nil_append] at hspec
  refine ⟨_, ?_, hspec⟩
  rw [FlowCall.answer, enumerateFlows, if_neg (by have := hcalls.limit i; simpa using this), hcursor]
  rfl

/-- What the client gets are the pages of a scan of the identities. -/
theorem FlowScan.identities (hcalls : Timely calls) {pages : List (List Proto.Flow)}
    (hscan : FlowScan nonce calls i token pages)
    (htoken : TokenFor nonce (calls 0).observedNow token key) (hstart : key = none → i = 0)
    (hlater : key ≠ none → 0 < i) :
    Paging.Scan (fun i => (calls i).identities) (fun i => effectiveLimit (calls i).limit) i key
      (pages.map (·.map Proto.Flow.identity)) := by
  induction hscan generalizing key with
  | last h hend =>
    obtain ⟨reply, hreply, hflows, hnext⟩ := answer_spec hcalls htoken hstart hlater
    rw [h] at hreply
    cases hreply
    rw [List.map_singleton, hflows]
    exact .last (hnext.eq_nil_iff.mp hend)
  | more h hmore hrest ih =>
    obtain ⟨reply, hreply, hflows, hnext⟩ := answer_spec hcalls htoken hstart hlater
    rw [h] at hreply
    cases hreply
    rw [List.map_cons, hflows]
    have hsome := mt hnext.eq_nil_iff.mpr hmore
    obtain ⟨next, hkey⟩ := Option.ne_none_iff_exists'.mp hsome
    rw [hkey] at hnext
    exact .more hkey (ih hnext (fun habsurd => (nomatch habsurd)) fun _ => Nat.succ_pos _)

/-- The client gets to the end. -/
theorem exists_flowScan (hcalls : Timely calls) {pages : List (List Identity)}
    (hscan : Paging.Scan (fun i => (calls i).identities) (fun i => effectiveLimit (calls i).limit) i key
      pages) (htoken : TokenFor nonce (calls 0).observedNow token key)
    (hstart : key = none → i = 0) (hlater : key ≠ none → 0 < i) :
    ∃ pages, FlowScan nonce calls i token pages := by
  induction hscan generalizing token with
  | last h =>
    obtain ⟨reply, hreply, -, hnext⟩ := answer_spec hcalls htoken hstart hlater
    exact ⟨_, .last hreply (hnext.eq_nil_iff.mpr h)⟩
  | more h hrest ih =>
    obtain ⟨reply, hreply, -, hnext⟩ := answer_spec hcalls htoken hstart hlater
    rw [h] at hnext
    obtain ⟨pages, hpages⟩ := ih hnext (fun habsurd => (nomatch habsurd)) fun _ => Nat.succ_pos _
    exact ⟨_, .more hreply (fun habsurd => (nomatch hnext.eq_nil_iff.mp habsurd)) hpages⟩

/-- **A scan is complete and free of duplicates.** Whatever flows come and go between its pages, a
timely scan ends; its pages are strictly increasing, none has more flows than its call asked for, and a
flow that is there at every call is returned exactly once. -/
theorem flow_scan_complete (hcalls : Timely calls) :
    (∃ pages, FlowScan nonce calls 0 [] pages) ∧
    ∀ pages, FlowScan nonce calls 0 [] pages →
      pages.flatten.Pairwise (fun a b => a.identity < b.identity) ∧
      (∀ i page, pages[i]? = some page → page.length ≤ effectiveLimit (calls i).limit) ∧
      ∀ k, (∀ i < pages.length, ∃ flow ∈ (calls i).flows, flow.identity = k) →
        (pages.flatten.map Proto.Flow.identity).count k = 1 := by
  have hlists : ∀ i, (calls i).identities.Pairwise (· < ·) := fun i => pairwise_identities (hcalls.nodup i)
  constructor
  · obtain ⟨pages, hscan⟩ := Paging.exists_scan (fun i => (calls i).identities)
      (fun i => effectiveLimit (calls i).limit) 0 none
    exact exists_flowScan hcalls hscan rfl (fun _ => rfl) fun h => absurd rfl h
  · intro pages hpages
    have hscan : Paging.Scan (fun i => (calls i).identities) (fun i => effectiveLimit (calls i).limit) 0
        none (pages.map (·.map Proto.Flow.identity)) :=
      hpages.identities hcalls rfl (fun _ => rfl) fun h => absurd rfl h
    have hpairs := (hscan.pairwise hlists).1
    rw [← List.map_flatten] at hpairs
    refine ⟨List.pairwise_map.mp hpairs, fun i page hpage => ?_, fun k hstays => ?_⟩
    · have hlength := hscan.length_le (j := i) (p := page.map Proto.Flow.identity)
        (by rw [List.getElem?_map, hpage]; rfl)
      simpa using hlength
    · have hmem := hscan.mem_of_stays hlists (fun i => pos_effectiveLimit _) (k := k)
        (fun j hj => ?_) (fun c hc => (nomatch hc))
      · rw [← List.map_flatten] at hmem
        exact List.count_eq_one_of_mem (hpairs.imp ne_of_lt) hmem
      · rw [List.length_map] at hj
        rw [Nat.zero_add]
        exact mem_identities.mpr (hstays j hj)

/-- A flow from 10.0.0.1 to 10.0.0.2 by way of 10.0.0.3. -/
def sampleFlow (flowId : UInt64) : FlowState where
  flowId := flowId
  generation := 1
  original := ⟨.v4 (Bpf.ipv4 10 0 0 1), .v4 (Bpf.ipv4 10 0 0 2), 17, 1000, 2000⟩
  target := ⟨.v4 (Bpf.ipv4 10 0 0 1), .v4 (Bpf.ipv4 10 0 0 3), 17, 1000, 3000⟩
  reverse := ⟨.v4 (Bpf.ipv4 10 0 0 3), .v4 (Bpf.ipv4 10 0 0 1), 17, 3000, 1000⟩
  lastUsedNs := 0
  protocolFlags := 0
  tcpStateFlags := 0
  finSeenMask := 0
  finAckSeenMask := 0
  lifecycle := .active
  terminalDeadlineNs := 0

/-- Two flows, one a page. -/
def sampleListing : FlowCall := ⟨1, 5, 5, [sampleFlow 2, sampleFlow 1]⟩

theorem flow_scan_complete_sample : ∃ pages, FlowScan 7 (fun _ => sampleListing) 0 [] pages ∧
    (pages.flatten.map Proto.Flow.identity).count (identity 2 1) = 1 := by
  have hcalls : Timely fun _ => sampleListing :=
    { limit := fun _ => show effectiveLimit sampleListing.limit ≤ 10000 by decide
      nodup := fun _ => show (sampleListing.flows.map FlowState.identity).Nodup by decide
      order := fun _ _ => UInt64.le_refl _
      minute := fun _ _ =>
        show sampleListing.now.toNat - sampleListing.observedNow.toNat ≤ 60000000000 by decide }
  obtain ⟨⟨pages, hscan⟩, hpages⟩ := @flow_scan_complete 7 _ hcalls
  exact ⟨pages, hscan, (hpages pages hscan).2.2 _ fun i _ =>
    ⟨sampleFlow 2, List.mem_cons_self, rfl⟩⟩

end ShadowSocketProxy.ControlService
