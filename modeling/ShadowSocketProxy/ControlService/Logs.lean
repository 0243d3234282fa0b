import ShadowSocketProxy.Data.Bytes
import ShadowSocketProxy.Data.Numbered

/-! # The log ring

The ring of `logs.rs` keeps the newest records under consecutive sequence numbers. A reader passes the
cursor of one pull to the next, and is told when records behind its cursor are gone. -/

namespace ShadowSocketProxy.ControlService

open Bytes Numbered

variable {texts : List (String × String)} {start : Nat}

/-! ## The ring -/

/-- One retained log entry. -/
structure LogRecord where
  sequence : UInt64
  level : String
  message : String
  deriving DecidableEq

/-- Errors of a pull. -/
inductive LogError where
  | cursorExpired (cursor oldest : UInt64)
  deriving DecidableEq

/-- The text of an error. -/
def LogError.message : LogError → String
  | .cursorExpired cursor oldest =>
    "log cursor " ++ toString cursor ++ " is older than retained sequence " ++ toString oldest

/-- The records, oldest first. -/
structure LogRing where
  capacity : Nat
  nextSequence : UInt64
  records : List LogRecord
  deriving DecidableEq

namespace LogRing

/-- An empty ring; the source asserts that the capacity is not zero. -/
def new (capacity : Nat) : Option LogRing :=
  if 0 < capacity then some ⟨capacity, 1, []⟩ else none

/-- `while records.len() > capacity { records.pop_front() }`. -/
def evict (capacity : Nat) : List LogRecord → List LogRecord
  | [] => []
  | record :: records =>
    if (record :: records).length > capacity then evict capacity records else record :: records

/-- Append a record and return its sequence number. -/
def append (level message : String) (ring : LogRing) : LogRing × UInt64 :=
  let sequence := ring.nextSequence
  let records := ring.records ++ [⟨sequence, level, message⟩]
  (⟨ring.capacity, ring.nextSequence + 1, evict ring.capacity records⟩, sequence)

/-- Change the capacity, at least one. -/
def setCapacity (capacity : Nat) (ring : LogRing) : LogRing :=
  let capacity := max capacity 1
  ⟨capacity, ring.nextSequence, evict capacity ring.records⟩

/-- The records behind a cursor, and the cursor of the last of them. -/
def pull (cursor : UInt64) (limit : Nat) (ring : LogRing) :
    Except LogError (List LogRecord × UInt64) :=
  let expired := ring.records.head?.bind fun record =>
    if saturatingAdd cursor 1 < record.sequence then some record.sequence else none
  match expired with
  | some oldest => .error (.cursorExpired cursor oldest)
  | none =>
    let records := (ring.records.filter fun record => record.sequence > cursor).take limit
    .ok (records, (records.getLast?.map LogRecord.sequence).getD cursor)

end LogRing

/-! ## What the ring keeps of a log -/

/-- The sequence number of a record. -/
def LogRecord.number (record : LogRecord) : Nat := record.sequence.toNat

/-- The ring keeps an end of the log, and its newest record. -/
structure LogRing.Keeps (log : List LogRecord) (ring : LogRing) : Prop where
  numbered : Consecutive LogRecord.number 1 log
  next : ring.nextSequence.toNat = log.length + 1
  suffix : ring.records <:+ log
  bounded : ring.records.length ≤ ring.capacity
  positive : 0 < ring.capacity
  newest : log ≠ [] → ring.records ≠ []

namespace LogRing

variable {log gone : List LogRecord} {ring : LogRing}

theorem evict_suffix (capacity : Nat) (records : List LogRecord) :
    evict capacity records <:+ records := by
  induction records with
  | nil => exact List.suffix_refl _
  | cons record records ih =>
    rw [evict]
    split
    · exact ih.trans (List.suffix_cons _ _)
    · exact List.suffix_refl _

theorem length_evict_le (capacity : Nat) (records : List LogRecord) :
    (evict capacity records).length ≤ capacity := by
  induction records with
  | nil => exact Nat.zero_le _
  | cons record records ih =>
    rw [evict]
    split
    · exact ih
    · omega

theorem evict_ne_nil {capacity : Nat} (h : 0 < capacity) {records : List LogRecord}
    (hrecords : records ≠ []) : evict capacity records ≠ [] := by
  induction records with
  | nil => exact absurd rfl hrecords
  | cons record records ih =>
    rw [evict]
    split
    · -- something is left, since more than the capacity was there
      refine ih fun hnil => ?_
      subst hnil
      simp only [List.length_singleton] at *
      omega
    · exact List.cons_ne_nil _ _

/-- A new ring keeps the empty log. -/
theorem keeps_new {capacity : Nat} (h : LogRing.new capacity = some ring) : ring.Keeps [] := by
  rw [LogRing.new] at h
  split at h
  · rename_i hcapacity
    obtain rfl := Option.some.inj h
    exact ⟨trivial, rfl, List.suffix_refl _, Nat.zero_le _, hcapacity, fun hnil => absurd rfl hnil⟩
  · cases h

/-- An appended record continues the log. -/
theorem Keeps.append (h : ring.Keeps log) (hlog : log.length + 1 < 2 ^ 64 - 1)
    (level message : String) :
    (ring.append level message).1.Keeps (log ++ [⟨ring.nextSequence, level, message⟩]) where
  numbered := by
    refine consecutive_append.mpr ⟨h.numbered, ?_, trivial⟩
    rw [LogRecord.number, h.next]
    omega
  next := by
    have hnext := h.next
    have hone : (1 : UInt64).toNat = 1 := rfl
    rw [LogRing.append, UInt64.toNat_add, hone, hnext, List.length_append, List.length_singleton]
    omega
  suffix := by
    obtain ⟨gone, hgone⟩ := h.suffix
    refine (evict_suffix _ _).trans ⟨gone, ?_⟩
    rw [← List.append_assoc, hgone]
  bounded := length_evict_le _ _
  positive := h.positive
  newest := fun _ => evict_ne_nil h.positive (by simp)

/-- A change of the capacity keeps the log. -/
theorem Keeps.setCapacity (h : ring.Keeps log) (capacity : Nat) :
    (ring.setCapacity capacity).Keeps log where
  numbered := h.numbered
  next := h.next
  suffix := (evict_suffix _ _).trans h.suffix
  bounded := length_evict_le _ _
  positive := Nat.lt_of_lt_of_le Nat.zero_lt_one (Nat.le_max_right _ _)
  newest := fun hlog => evict_ne_nil (by omega) (h.newest hlog)

/-! ## Pulls -/

/-- The numbers of the retained records go on where the evicted ones end. -/
theorem Keeps.consecutive (h : ring.Keeps log) (hgone : gone ++ ring.records = log) :
    Consecutive LogRecord.number (gone.length + 1) ring.records := by
  have hnumbered := h.numbered
  rw [← hgone, consecutive_append] at hnumbered
  rw [Nat.add_comm]
  exact hnumbered.2

/-- A pull fails if the record behind the cursor is gone. -/
theorem Keeps.pull_error {cursor : UInt64} (h : ring.Keeps log)
    (hgone : gone ++ ring.records = log) (hcursor : cursor.toNat < gone.length) (limit : Nat) :
    ∃ oldest, ring.pull cursor limit = .error (.cursorExpired cursor oldest) := by
  have hconsecutive := h.consecutive hgone
  have hlog : log ≠ [] := by
    rintro rfl
    rw [List.append_eq_nil_iff] at hgone
    rw [hgone.1] at hcursor
    exact absurd hcursor (Nat.not_lt_zero _)
  obtain ⟨record, records, hrecords⟩ := List.exists_cons_of_ne_nil (h.newest hlog)
  rw [hrecords] at hconsecutive
  have hnumber : record.sequence.toNat = gone.length + 1 := hconsecutive.1
  have hexpired : saturatingAdd cursor 1 < record.sequence := by
    have hone : (1 : UInt64).toNat = 1 := rfl
    rw [UInt64.lt_iff_toNat_lt, toNat_saturatingAdd, hnumber, hone]
    omega
  refine ⟨record.sequence, ?_⟩
  rw [pull, hrecords, List.head?_cons, Option.bind_some, if_pos hexpired]

/-- Otherwise it returns the next records of the log. -/
theorem Keeps.pull_ok {cursor : UInt64} (h : ring.Keeps log) (hgone : gone ++ ring.records = log)
    (hcursor : gone.length ≤ cursor.toNat) (hnewest : cursor.toNat ≤ log.length) (limit : Nat) :
    ∃ next, ring.pull cursor limit = .ok ((log.drop cursor.toNat).take limit, next) ∧
      next.toNat = cursor.toNat + ((log.drop cursor.toNat).take limit).length := by
  have hconsecutive := h.consecutive hgone
  have hexpired : (ring.records.head?.bind fun record =>
      if saturatingAdd cursor 1 < record.sequence then some record.sequence else none) = none := by
    cases hrecords : ring.records with
    | nil => rfl
    | cons record records =>
      rw [hrecords] at hconsecutive
      have hnumber : record.sequence.toNat = gone.length + 1 := hconsecutive.1
      have hlt : record.sequence.toNat < 2 ^ 64 := record.sequence.toNat_lt
      have hone : (1 : UInt64).toNat = 1 := rfl
      rw [List.head?_cons, Option.bind_some, if_neg]
      rw [UInt64.lt_iff_toNat_lt, toNat_saturatingAdd, hnumber, hone]
      omega
  have hrecords : (ring.records.filter fun record => record.sequence > cursor) =
      log.drop cursor.toNat := by
    have hfilter := hconsecutive.filter_gt cursor.toNat
    rw [← hgone, List.drop_append, List.drop_of_length_le hcursor, List.nil_append, ← hfilter]
    rfl
  have hnumbered : Consecutive LogRecord.number (cursor.toNat + 1)
      ((log.drop cursor.toNat).take limit) := by
    rw [Nat.add_comm]
    exact (h.numbered.drop hnewest).take limit
  refine ⟨_, by rw [pull, hexpired, hrecords], ?_⟩
  cases hlast : ((log.drop cursor.toNat).take limit).getLast? with
  | none =>
    rw [List.getLast?_eq_none_iff.mp hlast]
    rfl
  | some record => exact hnumbered.key_getLast hlast

end LogRing

/-! ## Readers -/

/-- Calls on the ring. -/
inductive LogCall where
  | append (level message : String)
  | setCapacity (capacity : Nat)
  | pull (cursor : UInt64) (limit : Nat)

/-- The ring after a call. -/
def LogCall.apply (ring : LogRing) : LogCall → LogRing
  | .append level message => (ring.append level message).1
  | .setCapacity capacity => ring.setCapacity capacity
  | .pull _ _ => ring

/-- The text that a call appends. -/
def LogCall.text : LogCall → List (String × String)
  | .append level message => [(level, message)]
  | .setCapacity _ => []
  | .pull _ _ => []

/-- A reader, with what it has received. -/
structure LogReader where
  cursor : UInt64
  received : List LogRecord

/-- A pull at the reader's cursor; the reader goes on from the cursor it is given. -/
def LogReader.read (ring : LogRing) (limit : Nat) (reader : LogReader) : LogReader :=
  match ring.pull reader.cursor limit with
  | .ok (records, next) => ⟨next, reader.received ++ records⟩
  | .error _ => reader

/-- What happens while the reader is there. -/
inductive LogEvent where
  | other (call : LogCall)
  | read (limit : Nat)

/-- The text that an event appends. -/
def LogEvent.text : LogEvent → List (String × String)
  | .other call => call.text
  | .read _ => []

/-- The ring and the reader after an event. -/
def LogEvent.apply (state : LogRing × LogReader) : LogEvent → LogRing × LogReader
  | .other call => (call.apply state.1, state.2)
  | .read limit => (state.1, state.2.read state.1 limit)

/-- The records of texts, in the order of their appends. -/
def numberedLog (texts : List (String × String)) : List LogRecord :=
  texts.mapIdx fun i text => ⟨UInt64.ofNat (i + 1), text.1, text.2⟩

@[simp] theorem length_numberedLog (texts : List (String × String)) :
    (numberedLog texts).length = texts.length :=
  List.length_mapIdx

/-- A call on the ring keeps the log of the texts so far. -/
theorem LogRing.Keeps.apply {ring : LogRing} (h : ring.Keeps (numberedLog texts)) (call : LogCall)
    (hcount : (texts ++ call.text).length < 2 ^ 64 - 1) :
    (call.apply ring).Keeps (numberedLog (texts ++ call.text)) := by
  cases call with
  | append level message =>
    have hcount : texts.length + 1 < 2 ^ 64 - 1 := by
      simpa only [LogCall.text, List.length_append, List.length_singleton] using hcount
    have hsequence : ring.nextSequence = UInt64.ofNat (texts.length + 1) := by
      rw [← UInt64.ofNat_toNat (x := ring.nextSequence), h.next, length_numberedLog]
    have hkeeps := h.append (by rwa [length_numberedLog]) level message
    rw [hsequence] at hkeeps
    rw [LogCall.text, numberedLog, List.mapIdx_concat]
    exact hkeeps
  | setCapacity capacity =>
    rw [LogCall.text, List.append_nil]
    exact h.setCapacity capacity
  | pull cursor limit =>
    rw [LogCall.text, List.append_nil]
    exact h

/-- A run of calls keeps the log. -/
theorem LogRing.Keeps.run {ring : LogRing} (h : ring.Keeps (numberedLog texts))
    (calls : List LogCall) (hcount : (texts ++ calls.flatMap LogCall.text).length < 2 ^ 64 - 1) :
    (calls.foldl LogCall.apply ring).Keeps (numberedLog (texts ++ calls.flatMap LogCall.text)) := by
  induction calls generalizing texts ring with
  | nil => rwa [List.flatMap_nil, List.append_nil]
  | cons call calls ih =>
    rw [List.flatMap_cons, ← List.append_assoc] at hcount ⊢
    refine ih (h.apply call ?_) hcount
    rw [List.length_append] at hcount
    omega

/-- The reader has received the log from its start up to its cursor. -/
structure LogReader.Follows (log : List LogRecord) (start : Nat) (reader : LogReader) : Prop where
  start_le : start ≤ reader.cursor.toNat
  le_newest : reader.cursor.toNat ≤ log.length
  received : reader.received = (log.drop start).take (reader.cursor.toNat - start)

/-- A longer log changes nothing for the reader. -/
theorem LogReader.Follows.append {log : List LogRecord} {reader : LogReader}
    (h : reader.Follows log start) (more : List LogRecord) :
    reader.Follows (log ++ more) start where
  start_le := h.start_le
  le_newest := by
    have := h.le_newest
    rw [List.length_append]
    omega
  received := by
    have hstart := h.start_le
    have hnewest := h.le_newest
    rw [h.received, List.drop_append_of_le_length (by omega), List.take_append_of_le_length]
    rw [List.length_drop]
    omega

/-- A pull goes on where the reader is. -/
theorem LogReader.Follows.read {log : List LogRecord} {ring : LogRing} {reader : LogReader}
    (h : reader.Follows log start) (hring : ring.Keeps log) (limit : Nat) :
    (reader.read ring limit).Follows log start := by
  obtain ⟨gone, hgone⟩ := hring.suffix
  by_cases hcursor : reader.cursor.toNat < gone.length
  · obtain ⟨oldest, hpull⟩ := hring.pull_error hgone hcursor limit
    rw [LogReader.read, hpull]
    exact h
  · obtain ⟨next, hpull, hnext⟩ :=
      hring.pull_ok hgone (Nat.not_lt.mp hcursor) h.le_newest limit
    have hstart := h.start_le
    have hnewest := h.le_newest
    rw [LogReader.read, hpull]
    have hlength : ((log.drop reader.cursor.toNat).take limit).length ≤
        log.length - reader.cursor.toNat := by
      rw [List.length_take, List.length_drop]
      omega
    refine ⟨?_, ?_, ?_⟩
    · dsimp only
      omega
    · dsimp only
      omega
    · -- the records so far end at the cursor, the new ones begin there
      have hsplit : next.toNat - start = (reader.cursor.toNat - start) +
          ((log.drop reader.cursor.toNat).take limit).length := by omega
      have hdrop : (log.drop start).drop (reader.cursor.toNat - start) =
          log.drop reader.cursor.toNat := by
        rw [List.drop_drop, Nat.add_sub_cancel' hstart]
      have htake : (log.drop reader.cursor.toNat).take
          ((log.drop reader.cursor.toNat).take limit).length =
            (log.drop reader.cursor.toNat).take limit := by
        rw [List.length_take, ← List.take_take, List.take_length]
      dsimp only
      rw [hsplit, List.take_add, hdrop, htake, h.received]

/-- The ring keeps the log, and the reader follows it. -/
structure LogInv (texts : List (String × String)) (start : Nat) (state : LogRing × LogReader) :
    Prop where
  keeps : state.1.Keeps (numberedLog texts)
  follows : state.2.Follows (numberedLog texts) start

/-- An event keeps the ring and the reader together. -/
theorem LogInv.apply {state : LogRing × LogReader} (h : LogInv texts start state)
    (event : LogEvent) (hcount : (texts ++ event.text).length < 2 ^ 64 - 1) :
    LogInv (texts ++ event.text) start (event.apply state) := by
  cases event with
  | other call =>
    refine ⟨h.keeps.apply call hcount, ?_⟩
    rw [numberedLog, List.mapIdx_append]
    exact h.follows.append _
  | read limit =>
    rw [LogEvent.text, List.append_nil]
    exact ⟨h.keeps, h.follows.read h.keeps limit⟩

/-- A run keeps the ring and the reader together. -/
theorem LogInv.run {state : LogRing × LogReader} (h : LogInv texts start state)
    (events : List LogEvent)
    (hcount : (texts ++ events.flatMap LogEvent.text).length < 2 ^ 64 - 1) :
    LogInv (texts ++ events.flatMap LogEvent.text) start (events.foldl LogEvent.apply state) := by
  induction events generalizing texts state with
  | nil => rwa [List.flatMap_nil, List.append_nil]
  | cons event events ih =>
    rw [List.flatMap_cons, ← List.append_assoc] at hcount ⊢
    refine ih (h.apply event ?_) hcount
    rw [List.length_append] at hcount
    omega

/-! ## Continuity -/

/-- The record of a number was appended and is not retained. -/
def LogRing.Evicted (log : List LogRecord) (ring : LogRing) (n : Nat) : Prop :=
  (∃ record ∈ log, record.number = n) ∧ ¬ ∃ record ∈ ring.records, record.number = n

/-- The evicted numbers are those before the retained ones. -/
theorem LogRing.Keeps.evicted_iff {log gone : List LogRecord} {ring : LogRing} (h : ring.Keeps log)
    (hgone : gone ++ ring.records = log) (c : Nat) :
    ring.Evicted log (c + 1) ↔ c < gone.length := by
  have hlength : log.length = gone.length + ring.records.length := by
    rw [← hgone, List.length_append]
  rw [LogRing.Evicted, h.numbered.exists_key, (h.consecutive hgone).exists_key]
  omega

/-- The retained records are numbered up to the newest. -/
theorem LogRing.Keeps.map_number {log : List LogRecord} {ring : LogRing} (h : ring.Keeps log) :
    ring.records.map LogRecord.number =
      List.range' (ring.nextSequence.toNat - ring.records.length) ring.records.length := by
  obtain ⟨gone, hgone⟩ := h.suffix
  have hlength : log.length = gone.length + ring.records.length := by
    rw [← hgone, List.length_append]
  have hfirst : ring.nextSequence.toNat - ring.records.length = gone.length + 1 := by
    rw [h.next]
    omega
  rw [(h.consecutive hgone).map_eq, hfirst]

/-- In every run from a new ring the retained records are numbered consecutively up to the newest and
fit the capacity. A reader that starts at most at the newest record has received the log from there up
to its cursor; its next pull fails iff the record behind the cursor is evicted, and otherwise returns
the records behind the cursor, as many as the limit allows. -/
theorem log_ring_continuous (capacity : Nat) (ring : LogRing)
    (hnew : LogRing.new capacity = some ring) (calls : List LogCall) (start : UInt64)
    (hstart : start.toNat < (calls.foldl LogCall.apply ring).nextSequence.toNat)
    (events : List LogEvent)
    (hcount : (calls.flatMap LogCall.text ++ events.flatMap LogEvent.text).length < 2 ^ 64 - 1) :
    let log := numberedLog (calls.flatMap LogCall.text ++ events.flatMap LogEvent.text)
    let state := events.foldl LogEvent.apply (calls.foldl LogCall.apply ring, ⟨start, []⟩)
    (state.1.records.map LogRecord.number =
        List.range' (state.1.nextSequence.toNat - state.1.records.length) state.1.records.length ∧
      state.1.records.length ≤ state.1.capacity) ∧
    (start.toNat ≤ state.2.cursor.toNat ∧ state.2.cursor.toNat ≤ log.length ∧
      state.2.received = (log.drop start.toNat).take (state.2.cursor.toNat - start.toNat)) ∧
    ∀ limit, 1 ≤ limit →
      ((∃ oldest, state.1.pull state.2.cursor limit =
          .error (.cursorExpired state.2.cursor oldest)) ↔
        state.1.Evicted log (state.2.cursor.toNat + 1)) ∧
      (¬ state.1.Evicted log (state.2.cursor.toNat + 1) →
        ∃ next, state.1.pull state.2.cursor limit =
            .ok ((log.drop state.2.cursor.toNat).take limit, next) ∧
          next.toNat = state.2.cursor.toNat + min limit (log.length - state.2.cursor.toNat)) := by
  intro log state
  have hkeeps₀ : (calls.foldl LogCall.apply ring).Keeps
      (numberedLog (calls.flatMap LogCall.text)) := by
    have hempty : ring.Keeps (numberedLog []) := LogRing.keeps_new hnew
    refine hempty.run calls ?_
    rw [List.length_append] at hcount
    rw [List.nil_append]
    omega
  have hfollows₀ : LogReader.Follows (numberedLog (calls.flatMap LogCall.text)) start.toNat
      ⟨start, []⟩ := by
    have hnext := hkeeps₀.next
    refine ⟨Nat.le_refl _, by dsimp only; omega, ?_⟩
    rw [Nat.sub_self, List.take_zero]
  have hinv : LogInv (calls.flatMap LogCall.text ++ events.flatMap LogEvent.text) start.toNat state :=
    LogInv.run ⟨hkeeps₀, hfollows₀⟩ events hcount
  obtain ⟨hkeeps, hfollows⟩ := hinv
  obtain ⟨gone, hgone⟩ := hkeeps.suffix
  refine ⟨⟨hkeeps.map_number, hkeeps.bounded⟩,
    ⟨hfollows.start_le, hfollows.le_newest, hfollows.received⟩, fun limit _ => ?_⟩
  rw [hkeeps.evicted_iff hgone]
  by_cases hcursor : state.2.cursor.toNat < gone.length
  · exact ⟨⟨fun _ => hcursor, fun _ => hkeeps.pull_error hgone hcursor limit⟩,
      fun hnot => absurd hcursor hnot⟩
  · obtain ⟨next, hpull, hnext⟩ :=
      hkeeps.pull_ok hgone (Nat.not_lt.mp hcursor) hfollows.le_newest limit
    rw [List.length_take, List.length_drop] at hnext
    refine ⟨⟨?_, fun h => absurd h hcursor⟩, fun _ => ⟨next, hpull, hnext⟩⟩
    rintro ⟨oldest, herror⟩
    rw [hpull] at herror
    cases herror

/-- A reader that starts before two records, reads one of them and loses nothing when the ring shrinks
to the other. -/
theorem log_ring_continuous_sample :
    (LogRing.new 2 = some ⟨2, 1, []⟩) ∧
    ([LogEvent.read 1, .other (.setCapacity 0), .read 5].foldl LogEvent.apply
        ([LogCall.append "INFO" "one", .append "INFO" "two"].foldl LogCall.apply ⟨2, 1, []⟩,
          ⟨0, []⟩)).2.received =
      ((numberedLog [("INFO", "one"), ("INFO", "two")]).drop 0).take 2 :=
  ⟨rfl, (log_ring_continuous 2 ⟨2, 1, []⟩ rfl [.append "INFO" "one", .append "INFO" "two"] 0
    (by decide) [.read 1, .other (.setCapacity 0), .read 5] (by decide)).2.1.2.2⟩

end ShadowSocketProxy.ControlService
