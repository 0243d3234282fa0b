import ShadowSocketProxy.ControlService.Backend
import Mathlib.Data.List.Nodup

/-! # The record of the links

What each call of the backend does to the kernel links and to the record of them. The record names
exactly the links the adapter holds, as long as no attach repeats an interface and no rollback inside a
failed attach fails. -/

namespace ShadowSocketProxy.ControlService

open Interleaving
open Interleaving.Machine (wp_mono wp_seq)

variable {allowed : LinkChoice → Prop} {s s' : LinuxBpfBackend}

/-- What must hold of every result of a program of the backend. -/
abbrev Guarantees {β : Type} (allowed : LinkChoice → Prop) (p : Link β)
    (Q : β → LinuxBpfBackend → Prop) (s : LinuxBpfBackend) : Prop :=
  linkMachine.wp allowed p Q s

/-- What the adapter keeps of its links: none is held twice, and none without a loaded object. -/
structure SoundLinks (s : LinuxBpfBackend) : Prop where
  nodup : s.links.Nodup
  loaded : s.links ≠ [] → s.loaded.isSome

/-! ## Steps -/

/-- One step, then the rest. -/
theorem guarantees_take {β : Type} {op : LinkOp} {f : op.Resp → Link β}
    {Q : β → LinuxBpfBackend → Prop}
    (h : ∀ c resp s', allowed c → op.exec c s = some (resp, s') → Guarantees allowed (f resp) Q s') :
    Guarantees allowed (op.take >>= f) Q s := h

/-- Some detach of the adapter may be refused. -/
def Refusing (allowed : LinkChoice → Prop) : Prop := ∃ c, allowed c ∧ c.detach ≠ none

/-- Two states that differ in the kernel links only. -/
structure SameRecord (s s' : LinuxBpfBackend) : Prop where
  loaded : s'.loaded = s.loaded
  attachments : s'.attachments = s.attachments

theorem SameRecord.refl (s : LinuxBpfBackend) : SameRecord s s := ⟨rfl, rfl⟩

theorem SameRecord.trans {s'' : LinuxBpfBackend} (h : SameRecord s s') (h' : SameRecord s' s'') :
    SameRecord s s'' :=
  ⟨h'.loaded.trans h.loaded, h'.attachments.trans h.attachments⟩

/-- `detachLink` takes the link away, or fails and changes nothing. -/
theorem detachLink_cases (hs : SoundLinks s) (c : LinkChoice) (a : Attachment) :
    (∃ s', s.detachLink c a = (.ok (), s') ∧ a ∈ s.links ∧ SameRecord s s' ∧ SoundLinks s' ∧
        ∀ b, b ∈ s'.links ↔ b ∈ s.links ∧ b ≠ a) ∨
      ∃ e, s.detachLink c a = (.error e, s) ∧ (a ∉ s.links ∨ c.detach ≠ none) := by
  rw [LinuxBpfBackend.detachLink]
  by_cases hlink : a ∈ s.links
  · have hloaded : ¬ s.loaded.isNone := by
      simpa [Option.isSome_iff_ne_none] using hs.loaded (List.ne_nil_of_mem hlink)
    rw [if_neg hloaded, if_neg (not_not.mpr hlink)]
    cases hrefused : c.detach with
    | some message => exact .inr ⟨_, rfl, .inr (by simp)⟩
    | none =>
      refine .inl ⟨_, rfl, hlink, ⟨rfl, rfl⟩, ⟨hs.nodup.erase a, fun h => ?_⟩, fun b => ?_⟩
      · exact hs.loaded (List.ne_nil_of_mem hlink)
      · rw [hs.nodup.mem_erase_iff]
        exact And.comm
  · split
    · exact .inr ⟨_, rfl, .inl hlink⟩
    · exact .inr ⟨_, rfl, .inl hlink⟩

/-- `attachLink` leaves the link in place, or fails and changes nothing. -/
theorem attachLink_cases (hs : SoundLinks s) (c : LinkChoice) (a : Attachment) :
    (∃ s', s.attachLink c a = (.ok (), s') ∧ SameRecord s s' ∧ SoundLinks s' ∧
        ∀ b, b ∈ s'.links ↔ b ∈ s.links ∨ b = a) ∨
      ∃ e, s.attachLink c a = (.error e, s) := by
  rw [LinuxBpfBackend.attachLink]
  split
  · exact .inr ⟨_, rfl⟩
  · rename_i hloaded
    split
    · rename_i hlink
      refine .inl ⟨s, rfl, .refl s, hs, fun b => ⟨.inl, ?_⟩⟩
      rintro (h | rfl)
      · exact h
      · exact hlink
    · rename_i hlink
      cases c.attach with
      | some message => exact .inr ⟨_, rfl⟩
      | none =>
        refine .inl ⟨_, rfl, ⟨rfl, rfl⟩, ⟨?_, fun _ => ?_⟩, fun b => by simp⟩
        · exact hs.nodup.append (List.nodup_singleton a) (by simpa using hlink)
        · simpa [Option.isSome_iff_ne_none] using hloaded

/-! ## Detaching a list of links -/

/-- What detaching the listed links leads to. -/
structure Detached (allowed : LinkChoice → Prop) (l : List Attachment) (s s' : LinuxBpfBackend)
    (result : List Attachment × List String) : Prop where
  same : SameRecord s s'
  sound : SoundLinks s'
  links : ∀ a, a ∈ s'.links ↔ a ∈ s.links ∧ a ∉ result.1
  listed : ∀ a ∈ result.1, a ∈ l
  linked : ∀ a ∈ result.1, a ∈ s.links
  /-- A listed link stays only when its detach is refused. -/
  refused : ∀ a ∈ l, a ∈ s'.links → Refusing allowed
  complete : result.2 = [] → result.1 = l
  /-- Without repetitions in the list, a failure means that a listed link did not go. -/
  failed : result.2 ≠ [] → l.Nodup → ∃ a ∈ l, a ∉ result.1

theorem guarantees_detachEach (l : List Attachment) (hs : SoundLinks s) :
    Guarantees allowed (detachEach l) (fun result s' => Detached allowed l s s' result) s := by
  induction l generalizing s with
  | nil =>
    exact ⟨.refl s, hs, by simp, by simp, by simp, by simp, fun _ => rfl, fun h => absurd rfl h⟩
  | cons a rest ih =>
    refine guarantees_take fun c resp s₁ hc hexec => ?_
    have hexec : s.detachLink c a = (resp, s₁) := Option.some.inj hexec
    rcases detachLink_cases hs c a with
      ⟨s₂, hdetach, hlink, hsame, hsound, hlinks⟩ | ⟨e, hdetach, hwhy⟩
    · rw [hdetach] at hexec
      cases hexec
      refine wp_seq (ih hsound) fun others s₃ h => ?_
      refine ⟨hsame.trans h.same, h.sound, fun b => ?_, ?_, ?_, ?_, fun hnone => ?_, ?_⟩
      · rw [h.links, hlinks, List.mem_cons, not_or, and_assoc]
      · intro b hb
        rcases List.mem_cons.mp hb with rfl | hb
        · exact .head _
        · exact .tail _ (h.listed b hb)
      · intro b hb
        rcases List.mem_cons.mp hb with rfl | hb
        · exact hlink
        · exact ((hlinks b).mp (h.linked b hb)).1
      · intro b hb hstays
        rcases List.mem_cons.mp hb with rfl | hb
        · have := (hlinks b).mp ((h.links b).mp hstays).1
          exact absurd rfl this.2
        · exact h.refused b hb hstays
      · exact congrArg (a :: ·) (h.complete hnone)
      · intro hfailed hnodup
        obtain ⟨hnew, hnodup⟩ := List.nodup_cons.mp hnodup
        obtain ⟨b, hb, hstays⟩ := h.failed hfailed hnodup
        refine ⟨b, .tail _ hb, fun hmem => ?_⟩
        rcases List.mem_cons.mp hmem with rfl | hmem
        · exact hnew hb
        · exact hstays hmem
    · rw [hdetach] at hexec
      cases hexec
      refine wp_seq (ih hs) fun others s₃ h => ?_
      refine ⟨h.same, h.sound, h.links, fun b hb => .tail _ (h.listed b hb), h.linked, ?_,
        fun hnone => (nomatch hnone), fun _ hnodup => ?_⟩
      · intro b hb hstays
        rcases List.mem_cons.mp hb with rfl | hb
        · rcases hwhy with hlink | hrefused
          · exact absurd ((h.links b).mp hstays).1 hlink
          · exact ⟨c, hc, hrefused⟩
        · exact h.refused b hb hstays
      · have hnew := (List.nodup_cons.mp hnodup).1
        exact ⟨a, .head _, fun hmem => hnew (h.listed a hmem)⟩

/-! ## Attaching a list of links -/

/-- Those of the listed links that are not on record. -/
def unrecorded (s : LinuxBpfBackend) (l : List Attachment) : List Attachment :=
  l.filter (· ∉ s.attachments)

theorem mem_unrecorded {l : List Attachment} {a : Attachment} :
    a ∈ unrecorded s l ↔ a ∈ l ∧ a ∉ s.attachments := by
  simp [unrecorded]

/-- What attaching the listed links leads to, beside links created before. -/
inductive AttachedEach (allowed : LinkChoice → Prop) (l created : List Attachment)
    (s s' : LinuxBpfBackend) : Except BackendError (List Attachment) → Prop
  /-- All links that are not on record are there. -/
  | ok (hsame : SameRecord s s') (hsound : SoundLinks s')
      (hlinks : ∀ a, a ∈ s'.links ↔ a ∈ s.links ∨ a ∈ unrecorded s l) :
      AttachedEach allowed l created s s' (.ok (created ++ unrecorded s l))
  /-- One could not be attached, and the created ones are gone unless a detach was refused. -/
  | error (e : BackendError) (hsame : SameRecord s s') (hsound : SoundLinks s')
      (hkept : ∀ a ∈ s.links, a ∉ created → a ∉ unrecorded s l → a ∈ s'.links)
      (hgone : ∀ a ∈ s'.links, a ∈ s.links ∧ a ∉ created ∨ Refusing allowed) :
      AttachedEach allowed l created s s' (.error e)

theorem guarantees_attachEach (l created : List Attachment) (hs : SoundLinks s) :
    Guarantees allowed (attachEach l created)
      (fun result s' => AttachedEach allowed l created s s' result) s := by
  induction l generalizing created s with
  | nil =>
    have hok : AttachedEach allowed [] created s s (.ok (created ++ unrecorded s [])) :=
      .ok (.refl s) hs (by simp [unrecorded])
    rw [unrecorded, List.filter_nil, List.append_nil] at hok
    exact hok
  | cons a rest ih =>
    refine guarantees_take fun c owned s₁ _ hexec => ?_
    cases hexec
    by_cases howned : a ∈ s.attachments
    · have hskip : unrecorded s (a :: rest) = unrecorded s rest := by
        rw [unrecorded, unrecorded, List.filter_cons_of_neg (by simpa using howned)]
      rw [if_pos howned]
      refine wp_mono (ih created hs) fun result s₂ h => ?_
      cases h with
      | ok hsame hsound hlinks =>
        rw [← hskip] at hlinks ⊢
        exact .ok hsame hsound hlinks
      | error e hsame hsound hkept hgone =>
        rw [← hskip] at hkept
        exact .error e hsame hsound hkept hgone
    · have htake : unrecorded s (a :: rest) = a :: unrecorded s rest := by
        rw [unrecorded, unrecorded, List.filter_cons_of_pos (by simpa using howned)]
      rw [if_neg howned]
      refine guarantees_take fun c resp s₁ _ hexec => ?_
      have hexec : s.attachLink c a = (resp, s₁) := Option.some.inj hexec
      rcases attachLink_cases hs c a with ⟨s₂, hattach, hsame, hsound, hlinks⟩ | ⟨e, hattach⟩
      · rw [hattach] at hexec
        cases hexec
        have hrecord : unrecorded s₁ rest = unrecorded s rest := by
          rw [unrecorded, unrecorded, hsame.attachments]
        refine wp_mono (ih (created ++ [a]) hsound) fun result s₃ h => ?_
        cases h with
        | ok hsame' hsound' hlinks' =>
          rw [hrecord, List.append_assoc, List.singleton_append, ← htake]
          refine .ok (hsame.trans hsame') hsound' fun b => ?_
          rw [hlinks', hlinks, hrecord, htake, List.mem_cons, or_assoc]
        | error e hsame' hsound' hkept hgone =>
          rw [hrecord] at hkept
          refine .error e (hsame.trans hsame') hsound' (fun b hb hnew hmissed => ?_) fun b hb => ?_
          · rw [htake, List.mem_cons, not_or] at hmissed
            refine hkept b ((hlinks b).mpr (.inl hb)) ?_ hmissed.2
            rw [List.mem_append, List.mem_singleton, not_or]
            exact ⟨hnew, hmissed.1⟩
          · rcases hgone b hb with ⟨hold, hnew⟩ | hrefusing
            · rw [List.mem_append, List.mem_singleton, not_or] at hnew
              exact .inl ⟨((hlinks b).mp hold).resolve_right hnew.2, hnew.1⟩
            · exact .inr hrefusing
      · rw [hattach] at hexec
        cases hexec
        refine wp_seq (guarantees_detachEach created hs) fun rollback s₂ h => ?_
        refine .error _ h.same h.sound (fun b hb hnew _ => ?_) fun b hb => ?_
        · exact (h.links b).mpr ⟨hb, fun hdetached => hnew (h.listed b hdetached)⟩
        · by_cases hcreated : b ∈ created
          · exact .inr (h.refused b hcreated hb)
          · exact .inl ⟨((h.links b).mp hb).1, hcreated⟩

/-! ## Whole calls -/

/-- `loadElf` leaves links and record alone, and an object with links is not replaced. -/
theorem loadElf_cases (hs : SoundLinks s) (c : LinkChoice) (elf : String) :
    (∃ loaded, s.loadElf c elf = (.ok (), { s with loaded := some loaded }) ∧
        (s.links ≠ [] → some loaded = s.loaded)) ∨
      ∃ e, s.loadElf c elf = (.error e, s) := by
  obtain ⟨loaded, links, attachments⟩ := s
  cases loaded with
  | none =>
    obtain rfl : links = [] := by
      by_contra hlinks
      exact absurd (hs.loaded hlinks) (by simp)
    cases hload : c.load with
    | some message =>
      exact .inr ⟨.operation "load" message, by simp [LinuxBpfBackend.loadElf, hload]⟩
    | none =>
      exact .inl ⟨{ elf := elf, maxima := c.maxima }, by simp [LinuxBpfBackend.loadElf, hload],
        fun h => absurd rfl h⟩
  | some current =>
    by_cases hsame : current.elf = elf
    · exact .inl ⟨current, by simp [LinuxBpfBackend.loadElf, hsame], fun _ => rfl⟩
    · cases links with
      | cons link links =>
        exact .inr ⟨.operation "load" "cannot replace an ELF while owned TC links are attached",
          by simp [LinuxBpfBackend.loadElf, hsame]⟩
      | nil =>
        cases hload : c.load with
        | some message =>
          exact .inr ⟨.operation "load" message,
            by simp [LinuxBpfBackend.loadElf, hsame, hload]⟩
        | none =>
          exact .inl ⟨{ elf := elf, maxima := c.maxima },
            by simp [LinuxBpfBackend.loadElf, hsame, hload], fun h => absurd rfl h⟩

/-- What an attach leads to. -/
inductive AttachResult (allowed : LinkChoice → Prop) (interfaces : List String)
    (s s' : LinuxBpfBackend) : Except BackendError AttachReport → Prop
  /-- All requested links are there and on record. -/
  | ok (report : AttachReport) (hinterfaces : interfaces ≠ [])
      (hattachments : s'.attachments = s.attachments ++ unrecorded s (requested interfaces))
      (hcreated : report.created = unrecorded s (requested interfaces))
      (hloaded : ∃ loaded, s'.loaded = some loaded ∧ report.maxima = loaded.maxima)
      (hkept : s.links ≠ [] → s'.loaded = s.loaded) (hsound : SoundLinks s')
      (hlinks : ∀ a, a ∈ s'.links ↔ a ∈ s.links ∨ a ∈ unrecorded s (requested interfaces)) :
      AttachResult allowed interfaces s s' (.ok report)
  /-- The record is as it was, and so are the links unless a detach was refused. -/
  | error (e : BackendError) (hattachments : s'.attachments = s.attachments)
      (hkept : s.links ≠ [] → s'.loaded = s.loaded) (hsound : SoundLinks s')
      (hlinks : ∀ a ∈ s.links, a ∉ unrecorded s (requested interfaces) → a ∈ s'.links)
      (hgone : ∀ a ∈ s'.links, a ∈ s.links ∨ Refusing allowed) :
      AttachResult allowed interfaces s s' (.error e)

theorem guarantees_attach (elf : String) (interfaces : List String) (hs : SoundLinks s) :
    Guarantees allowed (attach elf interfaces)
      (fun result s' => AttachResult allowed interfaces s s' result) s := by
  have hunchanged : ∀ e, AttachResult allowed interfaces s s (.error e) := fun e =>
    .error e rfl (fun _ => rfl) hs (fun _ h _ => h) fun _ h => .inl h
  refine guarantees_take fun c found s₁ _ hexec => ?_
  obtain ⟨-, rfl⟩ : found = !c.missing ∧ s = s₁ := by
    cases hexec
    exact ⟨rfl, rfl⟩
  split
  · exact hunchanged _
  · split
    · exact hunchanged _
    · rename_i hinterfaces
      split
      · exact hunchanged _
      · refine guarantees_take fun c resp s₁ _ hexec => ?_
        have hexec : s.loadElf c elf = (resp, s₁) := Option.some.inj hexec
        rcases loadElf_cases hs c elf with ⟨loaded, hload, hkept⟩ | ⟨e, hload⟩
        · rw [hload] at hexec
          cases hexec
          refine wp_seq (guarantees_attachEach _ [] ⟨hs.nodup, fun _ => rfl⟩) fun result s₂ h => ?_
          cases h with
          | error e hsame hsound hlinks hgone =>
            refine .error e hsame.attachments (fun hne => hsame.loaded.trans (hkept hne)) hsound
              (fun a ha => hlinks a ha (by simp)) fun a ha => ?_
            exact (hgone a ha).imp_left And.left
          | ok hsame hsound hlinks =>
            refine guarantees_take fun c _ s₃ _ hexec => ?_
            cases hexec
            refine guarantees_take fun c attachments s₃ _ hexec => ?_
            cases hexec
            refine guarantees_take fun c maxima s₃ _ hexec => ?_
            cases hexec
            refine .ok _ hinterfaces ?_ rfl ⟨loaded, hsame.loaded, ?_⟩
              (fun hne => hsame.loaded.trans (hkept hne)) ⟨hsound.nodup, hsound.loaded⟩ hlinks
            · show s₂.attachments ++ _ = _
              rw [hsame.attachments]
              rfl
            · rw [hsame.loaded]
              rfl
        · rw [hload] at hexec
          cases hexec
          exact hunchanged e

/-- What detaching links and striking them from the record leads to. -/
structure Retained (allowed : LinkChoice → Prop) (l : List Attachment) (s s' : LinuxBpfBackend)
    (detached : List Attachment) (result : Except BackendError Unit) : Prop where
  loaded : s'.loaded = s.loaded
  sound : SoundLinks s'
  attachments : s'.attachments = s.attachments.filter (· ∉ detached)
  links : ∀ a, a ∈ s'.links ↔ a ∈ s.links ∧ a ∉ detached
  listed : ∀ a ∈ detached, a ∈ l
  /-- A listed link stays only when its detach is refused. -/
  refused : ∀ a ∈ l, a ∈ s'.links → Refusing allowed
  complete : result = .ok () → detached = l
  failed : result ≠ .ok () → l.Nodup → ∃ a ∈ l, a ∉ detached

theorem guarantees_detachAndRetain (location : String) (l : List Attachment) (hs : SoundLinks s) :
    Guarantees allowed (detachAndRetain location l)
      (fun result s' => ∃ detached, Retained allowed l s s' detached result) s := by
  refine wp_seq (guarantees_detachEach l hs) fun result s₁ h => ?_
  refine guarantees_take fun c _ s₂ _ hexec => ?_
  cases hexec
  refine ⟨result.1, h.same.loaded, ⟨h.sound.nodup, h.sound.loaded⟩, ?_, h.links, h.listed,
    h.refused, ?_, ?_⟩
  · show s₁.attachments.filter _ = _
    rw [h.same.attachments]
  · intro hok
    split at hok
    · rename_i hnone
      exact h.complete hnone
    · cases hok
  · intro hfailed hnodup
    split at hfailed
    · exact absurd rfl hfailed
    · rename_i hsome
      exact h.failed hsome hnodup

theorem guarantees_detach (interfaces : Option (List String)) (hs : SoundLinks s) :
    Guarantees allowed (detach interfaces) (fun result s' =>
      ∃ detached, Retained allowed (selected interfaces s.attachments) s s' detached result) s := by
  refine guarantees_take fun c owned s₁ _ hexec => ?_
  cases hexec
  exact guarantees_detachAndRetain _ _ hs

/-- `writeConfig` changes the runtime map of the loaded object, if it succeeds. -/
theorem writeConfig_cases (c : LinkChoice) (config : RuntimeConfig) :
    (∃ loaded, s.loaded = some loaded ∧ s.writeConfig c config =
        (.ok (), { s with loaded := some { loaded with config := some config } })) ∨
      ∃ e, s.writeConfig c config = (.error e, s) ∧
        (e = .notAttached ∧ s.loaded = none ∨ e ≠ .notAttached ∧ e ≠ .unsupported) := by
  rw [LinuxBpfBackend.writeConfig]
  split
  · exact .inr ⟨_, rfl, .inr ⟨by simp, by simp⟩⟩
  · exact .inr ⟨_, rfl, .inr ⟨by simp, by simp⟩⟩
  · cases hloaded : s.loaded with
    | none => exact .inr ⟨_, rfl, .inl ⟨rfl, rfl⟩⟩
    | some loaded =>
      cases c.write with
      | some message => exact .inr ⟨_, rfl, .inr ⟨by simp, by simp⟩⟩
      | none => exact .inl ⟨loaded, rfl, rfl⟩

/-! ## The record names the links -/

/-- The record has no repetitions and names exactly the links the adapter holds. -/
structure Tracked (s : LinuxBpfBackend) : Prop where
  nodup : s.attachments.Nodup
  links : ∀ a, a ∈ s.attachments ↔ a ∈ s.links

/-- An attach that repeats no interface, unless its links are on record already. -/
def Distinct (call : BackendCall) (s : LinuxBpfBackend) : Prop :=
  ∀ elf interfaces, call = .attach elf interfaces → (unrecorded s (requested interfaces)).Nodup

/-- No detach inside an attach is refused. -/
def rollsBack (call : BackendCall) (c : LinkChoice) : Prop :=
  ∀ elf interfaces, call = .attach elf interfaces → c.detach = none

/-- A call and whether it succeeded. -/
def BackendCall.run (call : BackendCall) : Link Bool := do
  let result ← call.code
  pure result.isOk

theorem Tracked.attachResult {interfaces : List String} {result : Except BackendError AttachReport}
    (h : Tracked s) (hdistinct : (unrecorded s (requested interfaces)).Nodup)
    (hrefusing : ¬ Refusing allowed) (hresult : AttachResult allowed interfaces s s' result) :
    Tracked s' := by
  cases hresult with
  | ok report hinterfaces hattachments hcreated hloaded hkept hsound hlinks =>
    refine ⟨?_, fun a => ?_⟩
    · rw [hattachments]
      refine h.nodup.append hdistinct fun a hold hnew => ?_
      exact (mem_unrecorded.mp hnew).2 hold
    · rw [hattachments, List.mem_append, hlinks, h.links]
  | error e hattachments hkept hsound hlinks hgone =>
    refine ⟨?_, fun a => ?_⟩
    · rw [hattachments]
      exact h.nodup
    · rw [hattachments]
      refine ⟨fun ha => hlinks a ((h.links a).mp ha) fun hnew => ?_, fun ha => ?_⟩
      · exact (mem_unrecorded.mp hnew).2 ha
      · exact (h.links a).mpr ((hgone a ha).resolve_right hrefusing)

theorem Tracked.retained {l detached : List Attachment} {result : Except BackendError Unit}
    (h : Tracked s) (hretained : Retained allowed l s s' detached result) : Tracked s' := by
  refine ⟨?_, fun a => ?_⟩
  · rw [hretained.attachments]
    exact h.nodup.filter _
  · rw [hretained.attachments, hretained.links, ← h.links]
    simp

theorem Tracked.call {call : BackendCall} (hs : SoundLinks s) (h : Tracked s)
    (hdistinct : Distinct call s) :
    Guarantees (rollsBack call) call.run (fun _ s' => SoundLinks s' ∧ Tracked s') s := by
  cases call with
  | attach elf interfaces =>
    refine wp_seq (guarantees_attach elf interfaces hs) fun result s' hresult => ⟨?_, ?_⟩
    · cases hresult with
      | ok => assumption
      | error => assumption
    · refine h.attachResult (hdistinct elf interfaces rfl) ?_ hresult
      rintro ⟨c, hc, hrefused⟩
      exact hrefused (hc elf interfaces rfl)
  | detach interfaces =>
    exact wp_seq (guarantees_detach interfaces hs) fun result s' ⟨detached, hretained⟩ =>
      ⟨hretained.sound, h.retained hretained⟩
  | rollbackAttach attachments =>
    exact wp_seq (guarantees_detachAndRetain _ attachments hs) fun result s' ⟨detached, hretained⟩ =>
      ⟨hretained.sound, h.retained hretained⟩
  | setRuntimeConfig config =>
    refine guarantees_take fun c resp s₁ _ hexec => ?_
    have hexec : s.writeConfig c config = (resp, s₁) := Option.some.inj hexec
    rcases writeConfig_cases c config with ⟨loaded, hloaded, hwrite⟩ | ⟨e, hwrite, -⟩
    · rw [hwrite] at hexec
      cases hexec
      exact ⟨⟨hs.nodup, fun _ => rfl⟩, h.nodup, h.links⟩
    · rw [hwrite] at hexec
      cases hexec
      exact ⟨hs, h⟩

/-- **The backend keeps track of every kernel link**, after any sequence of calls in which no attach
repeats an unrecorded interface and no detach inside an attach is refused: the record has no
repetitions, names exactly the links of the adapter, and a detach of everything concerns each of them. -/
theorem serial_keeps_tracked
    (hrun : linkMachine.Serial BackendCall.run rollsBack Distinct {} s) :
    Tracked s ∧ ∀ a ∈ s.links, a ∈ selected none s.attachments := by
  have hinv : SoundLinks s ∧ Tracked s := by
    refine hrun.invariant (I := fun s => SoundLinks s ∧ Tracked s) ?_ ?_
    · exact ⟨⟨List.nodup_nil, fun h => absurd rfl h⟩, List.nodup_nil, fun a => by simp⟩
    · rintro call ok s₁ s₂ ⟨hs, h⟩ hdistinct hret
      exact hret.of_wp (Tracked.call hs h hdistinct)
  refine ⟨hinv.2, fun a ha => ?_⟩
  rw [selected, List.filter_eq_self.mpr fun _ _ => rfl]
  exact (hinv.2.links a).mpr ha

/-- Two interfaces are attached, and one of them is detached again. -/
theorem serial_keeps_tracked_sample : ∃ s,
    linkMachine.Serial BackendCall.run rollsBack Distinct {} s ∧ s.links = requested ["eth0"] ∧
      Tracked s := by
  have hrun : (linkMachine.run (BackendCall.attach "bpf.o" ["eth0", "eth1"]).run (List.replicate 13 {})
      {}).any (fun r => (linkMachine.run (BackendCall.detach (some ["eth1"])).run (List.replicate 9 {})
        r.2.1).any fun r' => decide (r'.2.1.links = requested ["eth0"])) = true := by
    decide +kernel
  obtain ⟨⟨ok, s, rest⟩, hattach, hrun⟩ := (Option.any_eq_true _ _).mp hrun
  obtain ⟨⟨ok', s', rest'⟩, hdetach, hlinks⟩ := (Option.any_eq_true _ _).mp hrun
  have hserial : linkMachine.Serial BackendCall.run rollsBack Distinct {} s' := by
    refine .step (.step .start (fun elf interfaces h => ?_) (Machine.returns_of_run hattach ?_))
      (by rintro elf interfaces ⟨⟩) (Machine.returns_of_run hdetach ?_)
    · cases h
      decide
    · exact fun c hc _ _ _ => by rw [List.eq_of_mem_replicate hc]
    · rintro c - _ _ ⟨⟩
  exact ⟨s', hserial, of_decide_eq_true hlinks, (serial_keeps_tracked hserial).1⟩

/-- **A refused rollback loses a link, and a repeated interface is recorded twice.** -/
theorem link_lost_or_repeated :
    (∃ s, linkMachine.Serial BackendCall.run (fun _ _ => True) (fun _ _ => True) {} s ∧
      s.links = [⟨"eth0", .ingress⟩] ∧ s.attachments = []) ∧
    ∃ s, linkMachine.Serial BackendCall.run (fun _ _ => True) (fun _ _ => True) {} s ∧
      ¬ s.attachments.Nodup := by
  constructor
  · have hrun : (linkMachine.run (BackendCall.attach "bpf.o" ["eth0"]).run
        (List.replicate 5 ({} : LinkChoice) ++
          [{ attach := some "busy" }, { detach := some "busy" }]) {}).any
        (fun r => decide (r.2.1.links = [⟨"eth0", .ingress⟩] ∧ r.2.1.attachments = [])) = true := by
      decide +kernel
    obtain ⟨ok, s, hret, hlost⟩ := Machine.exists_returns_of_run (M := linkMachine) (fun _ => True)
      (fun _ s => decide (s.links = [⟨"eth0", .ingress⟩] ∧ s.attachments = [])) hrun
      fun _ _ => trivial
    exact ⟨s, .step .start trivial hret, of_decide_eq_true hlost⟩
  · have hrun : (linkMachine.run (BackendCall.attach "bpf.o" ["eth0", "eth0"]).run
        (List.replicate 13 {}) {}).any (fun r => decide (¬ r.2.1.attachments.Nodup)) = true := by
      decide +kernel
    obtain ⟨ok, s, hret, hrepeated⟩ := Machine.exists_returns_of_run (M := linkMachine)
      (fun _ => True) (fun _ s => decide (¬ s.attachments.Nodup)) hrun fun _ _ => trivial
    exact ⟨s, .step .start trivial hret, of_decide_eq_true hrepeated⟩

end ShadowSocketProxy.ControlService
