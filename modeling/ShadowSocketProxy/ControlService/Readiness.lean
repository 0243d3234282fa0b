import ShadowSocketProxy.ControlService.Transactions

/-! # Readiness

A ready service should have something attached. `Attach` becomes ready behind its calls of the backend,
`Detach` becomes unready behind its own, and only `Attach` holds the transaction lock; the two may
overtake each other. They cannot when they do not overlap. The invariant is stated
over the stages of `Transactions`. -/

namespace ShadowSocketProxy.ControlService

open Interleaving
open Multiset (mem_cons mem_cons_of_mem mem_cons_self)

/-- Whether no thread of a kind is in progress. -/
def idle (kind : Request → Bool) (threads : List ServiceThread) : Bool :=
  threads.all fun t => !kind t.job || t.finished

/-- The service under clients that do not let an `Attach` and a `Detach` overlap. -/
def orderedService : Pool ServiceOp ServiceOp.Resp Service (List LinkChoice) Request Reply where
  machine := serviceMachine
  code := Request.code
  admits request threads :=
    (!request.attaches || idle Request.detaches threads) &&
      (!request.detaches || idle Request.attaches threads)

/-- An attach repeats no interface, unless its links are on record already. -/
def DistinctEvent (e : ServiceEvent) : Prop :=
  ∀ elf interfaces, e.op = .backend (.attach elf interfaces) →
    (unrecorded e.before.backend (requested interfaces)).Nodup

/-! ## Stages -/

namespace Stage

/-- The links that a request has added and not settled yet. -/
def new? : Stage → Option (List Attachment)
  | .created new | .read new _ | .configured new => some new
  | _ => none

/-- What a stage says about the record: behind the `new` links stand the `old` ones, which a ready service
has. -/
def ReadyFact (s : Service) (φ : Stage) : Prop :=
  ∀ new, φ.new? = some new → s.backend.attachments ≠ [] ∧
    ∃ old, s.backend.attachments = old ++ new ∧ (∀ a ∈ new, a ∉ old) ∧ (s.ready = true → old ≠ [])

/-- Which requests may be in a stage. -/
def Fits (request : Request) (φ : Stage) : Prop :=
  (φ.new?.isSome → request.attaches = true) ∧ (φ = .detached → request.detaches = true)

end Stage

/-- The invariant behind readiness. -/
structure ReadyInv (s : Service) (running : Multiset (Request × Stage)) : Prop where
  linked : Linked s.backend
  lock : Exclusive Stage.holds s.transaction running
  nodup : s.backend.attachments.Nodup
  /-- Attaching and detaching requests do not overlap. -/
  apart : ∀ x ∈ running, ∀ y ∈ running, ¬ (x.1.attaches = true ∧ y.1.detaches = true)
  fits : ∀ x ∈ running, x.2.Fits x.1
  facts : ∀ x ∈ running, x.2.ReadyFact s
  ready : s.ready = true → s.backend.attachments ≠ [] ∨ ∃ x ∈ running, x.2 = .detached

/-- The outline of readiness. -/
def readyOutline : Outline ServiceOp ServiceOp.Resp Service (List LinkChoice) Request Reply Stage where
  inv s _ running := ReadyInv s running
  permitted := DistinctEvent
  ends _ _ φ _ := φ = .out
  settled _ _ _ _ := True

/-! ## Steps -/

section Steps

variable {s s' : Service} {request : Request} {φ φ' : Stage} {rest : Multiset (Request × Stage)}
  {op : ServiceOp} {resp : op.Resp} {c : List LinkChoice} {thread : Nat}

theorem Stage.readyFact_of_none (h : φ.new? = none) : φ.ReadyFact s := fun new hnew => by
  rw [h] at hnew
  cases hnew

/-- Only a stage that `holds` the lock has `new?` links. -/
theorem Stage.new?_of_free (h : φ.holds = false) : φ.new? = none := by
  cases φ with
  | out | detached => rfl
  | _ => cases h

/-- A `Transition` leads a request to a stage that `Fits` it. -/
theorem Transition.fits (hstep : Transition request φ op resp φ') (h : φ.Fits request) :
    φ'.Fits request := by
  cases hstep with
  | attached hattaches => exact ⟨fun _ => hattaches, by rintro ⟨⟩⟩
  | detached hdetaches => exact ⟨by rintro ⟨⟩, fun _ => hdetaches⟩
  | snapshot | mapMaxima | setCapacity | noneLeft => exact h
  | read | configured | unconfigured => exact ⟨h.1, by rintro ⟨⟩⟩
  | _ => exact ⟨by rintro ⟨⟩, by rintro ⟨⟩⟩

/-- `ReadyInv` when one request moves on. -/
theorem ReadyInv.move (h : ReadyInv s ((request, φ) ::ₘ rest))
    (hstep : Transition request φ op resp φ') (hexec : op.exec c s = some (resp, s'))
    (hnodup : s'.backend.attachments.Nodup) (hfact : φ'.ReadyFact s')
    (hfacts : ∀ x ∈ rest, x.2.ReadyFact s → x.2.ReadyFact s')
    (hready : s'.ready = true → s'.backend.attachments ≠ [] ∨ φ' = .detached ∨
      ∃ x ∈ rest, x.2 = .detached) : ReadyInv s' ((request, φ') ::ₘ rest) where
  linked := linked_of_exec h.linked hexec
  lock := hstep.exclusive h.lock hexec
  nodup := hnodup
  apart := by
    -- The requests are the same as before.
    have hold : ∀ x ∈ (request, φ') ::ₘ rest, ∃ y ∈ (request, φ) ::ₘ rest, y.1 = x.1 := by
      intro x hx
      rcases mem_cons.mp hx with rfl | hx
      · exact ⟨_, mem_cons_self _ _, rfl⟩
      · exact ⟨x, mem_cons_of_mem hx, rfl⟩
    intro x hx y hy
    obtain ⟨x', hx', hxeq⟩ := hold x hx
    obtain ⟨y', hy', hyeq⟩ := hold y hy
    rw [← hxeq, ← hyeq]
    exact h.apart x' hx' y' hy'
  fits x hx := by
    rcases mem_cons.mp hx with rfl | hx
    · exact hstep.fits (h.fits _ (mem_cons_self _ _))
    · exact h.fits x (mem_cons_of_mem hx)
  facts x hx := by
    rcases mem_cons.mp hx with rfl | hx
    · exact hfact
    · exact hfacts x hx (h.facts x (mem_cons_of_mem hx))
  ready hr := by
    rcases hready hr with hne | hφ' | ⟨x, hx, hdetached⟩
    · exact .inl hne
    · exact .inr ⟨_, mem_cons_self _ _, hφ'⟩
    · exact .inr ⟨x, mem_cons_of_mem hx, hdetached⟩

/-- Why a service is ready, seen from one request. -/
theorem ReadyInv.ready_cases (h : ReadyInv s ((request, φ) ::ₘ rest)) (hr : s.ready = true) :
    s.backend.attachments ≠ [] ∨ φ = .detached ∨ ∃ x ∈ rest, x.2 = .detached := by
  rcases h.ready hr with hne | ⟨x, hx, hdetached⟩
  · exact .inl hne
  · rcases mem_cons.mp hx with rfl | hx
    · exact .inr (.inl hdetached)
    · exact .inr (.inr ⟨x, hx, hdetached⟩)

/-- Operations that touch neither the record nor readiness. -/
def ServiceOp.quiet : ServiceOp → Bool
  | .backend (.setRuntimeConfig _) => true
  | .backend _ | .setReady _ => false
  | _ => true

theorem exec_quiet (hexec : op.exec c s = some (resp, s')) (hop : op.quiet = true) :
    s'.backend.attachments = s.backend.attachments ∧ s'.ready = s.ready := by
  cases op with
  | lock =>
    obtain ⟨-, rfl⟩ := exec_lock hexec
    exact ⟨rfl, rfl⟩
  | backend call =>
    cases call with
    | setRuntimeConfig config =>
      rcases exec_setRuntimeConfig hexec with ⟨-, _, -, rfl⟩ | ⟨_, -, rfl, -⟩ <;> exact ⟨rfl, rfl⟩
    | _ => cases hop
  | update next => rcases exec_update hexec with ⟨_, -, rfl, -⟩ | ⟨_, -, rfl⟩ <;> exact ⟨rfl, rfl⟩
  | setReady ready => cases hop
  | _ =>
    cases hexec
    exact ⟨rfl, rfl⟩

section

variable (h : ReadyInv s ((request, φ) ::ₘ rest))

include h

/-- `ReadyInv` behind a `quiet` operation, to a stage with the same links that still settles readiness
if it has to. -/
theorem ReadyInv.quiet
    (hstep : Transition request φ op resp φ') (hexec : op.exec c s = some (resp, s'))
    (hop : op.quiet = true) (hnew : φ'.new? = φ.new?)
    (hdetached : φ = .detached → s.backend.attachments ≠ [] ∨ φ' = .detached) :
    ReadyInv s' ((request, φ') ::ₘ rest) := by
  obtain ⟨hattachments, hready⟩ := exec_quiet hexec hop
  have hsame : ∀ {ψ : Stage}, ψ.ReadyFact s → ψ.ReadyFact s' := fun hψ => by
    rw [Stage.ReadyFact, hattachments, hready]
    exact hψ
  refine h.move hstep hexec ?_ (hsame fun new hφ' => ?_) (fun _ _ => hsame) fun hr => ?_
  · rw [hattachments]
    exact h.nodup
  · exact h.facts _ (mem_cons_self _ _) new (hnew ▸ hφ')
  · rw [hready] at hr
    rw [hattachments]
    rcases h.ready_cases hr with hne | hφ | hother
    · exact .inl hne
    · exact (hdetached hφ).imp_right .inl
    · exact .inr (.inr hother)

/-- Beside a stage that `holds` the lock no other has a `ReadyFact` to lose. -/
theorem ReadyInv.others_free (hφ : φ.holds = true) :
    ∀ x ∈ rest, x.2.ReadyFact s → x.2.ReadyFact s' := fun x hx _ =>
  Stage.readyFact_of_none (Stage.new?_of_free (h.lock.alone hφ x hx))

/-- Nor does anybody's beside a detaching request. -/
theorem ReadyInv.others_apart
    (hdetaches : request.detaches = true) : ∀ x ∈ rest, x.2.ReadyFact s → x.2.ReadyFact s' := by
  intro x hx _
  have hmem : x ∈ (request, φ) ::ₘ rest := mem_cons_of_mem hx
  refine Stage.readyFact_of_none (Option.not_isSome_iff_eq_none.mp fun hsome => ?_)
  exact h.apart x hmem _ (mem_cons_self _ _) ⟨(h.fits x hmem).1 hsome, hdetaches⟩

/-- Beside an attaching request a ready service has links on record. -/
theorem ReadyInv.attachments_ne_nil
    (hattaches : request.attaches = true) (hr : s.ready = true) : s.backend.attachments ≠ [] := by
  rcases h.ready hr with hne | ⟨x, hx, hdetached⟩
  · exact hne
  · exact absurd ⟨hattaches, (h.fits x hx).2 hdetached⟩ (h.apart _ (mem_cons_self _ _) x hx)

end

/-- After a successful attach something is on record: what was requested, new or from before. -/
theorem attachments_of_attached {interfaces : List String} (hinterfaces : interfaces ≠ [])
    (hattachments : s'.backend.attachments =
      s.backend.attachments ++ unrecorded s.backend (requested interfaces)) :
    s'.backend.attachments ≠ [] := by
  obtain ⟨interface, hinterface⟩ := List.exists_mem_of_ne_nil _ hinterfaces
  have hrequested : (⟨interface, .ingress⟩ : Attachment) ∈ requested interfaces :=
    List.mem_flatMap.mpr ⟨interface, hinterface, by simp⟩
  refine List.ne_nil_of_mem (a := ⟨interface, .ingress⟩) ?_
  rw [hattachments, List.mem_append, mem_unrecorded]
  by_cases hold : (⟨interface, .ingress⟩ : Attachment) ∈ s.backend.attachments
  · exact .inl hold
  · exact .inr ⟨hrequested, hold⟩

/-- **Every `Transition` keeps `ReadyInv`.** -/
theorem ReadyInv.step (hstep : Transition request φ op resp φ')
    (hinv : ReadyInv s ((request, φ) ::ₘ rest)) (hexec : op.exec c s = some (resp, s'))
    (hperm : DistinctEvent ⟨thread, request, c, op, resp, s⟩) :
    ReadyInv s' ((request, φ') ::ₘ rest) := by
  have hself := hinv.facts _ (mem_cons_self _ _)
  have hsound := hinv.linked.toSoundLinks
  have hmove := hinv.move hstep hexec
  have hquiet := hinv.quiet hstep hexec
  cases hstep with
  | attached hattaches elf interfaces report =>
    obtain ⟨hresult, hs'⟩ := exec_backend hexec (guarantees_attach elf interfaces hsound)
    have hready : s'.ready = s.ready := by rw [hs']
    cases hresult with
    | ok report hinterfaces hattachments hcreated hloaded hkept hsound hlinks =>
      have hnew : ∀ a ∈ report.created, a ∉ s.backend.attachments := fun a ha => by
        rw [hcreated] at ha
        exact (mem_unrecorded.mp ha).2
      have hne := attachments_of_attached hinterfaces hattachments
      rw [← hcreated] at hattachments
      refine hmove ?_ ?_ (hinv.others_free rfl) fun _ => .inl hne
      · rw [hattachments]
        refine hinv.nodup.append ?_ fun a hold hcreated => hnew a hcreated hold
        rw [hcreated]
        exact hperm elf interfaces rfl
      · rintro _ ⟨⟩
        exact ⟨hne, _, hattachments, hnew, fun hr => hinv.attachments_ne_nil hattaches (hready ▸ hr)⟩
  | unattached hattaches elf interfaces error =>
    obtain ⟨hresult, hs'⟩ := exec_backend hexec (guarantees_attach elf interfaces hsound)
    have hready : s'.ready = s.ready := by rw [hs']
    cases hresult with
    | error e hattachments hkept hsound hlinks hgone =>
      refine hmove ?_ (Stage.readyFact_of_none rfl) (hinv.others_free rfl) fun hr => .inl ?_
      · rw [hattachments]
        exact hinv.nodup
      · rw [hattachments]
        exact hinv.attachments_ne_nil hattaches (hready ▸ hr)
  | rollback new resp =>
    obtain ⟨-, old, hattachments, hnew, hold⟩ := hself new rfl
    obtain ⟨⟨detached, hretained⟩, hs'⟩ :=
      exec_backend hexec (guarantees_detachAndRetain _ new hsound)
    have hready : s'.ready = s.ready := by rw [hs']
    refine hmove ?_ (Stage.readyFact_of_none rfl) (hinv.others_free rfl) fun hr => ?_
    · rw [hretained.attachments]
      exact hinv.nodup.filter _
    · -- What was on record before the attach is still there.
      rw [hready] at hr
      obtain ⟨a, ha⟩ := List.exists_mem_of_ne_nil _ (hold hr)
      refine .inl (List.ne_nil_of_mem (a := a) ?_)
      rw [hretained.attachments, hattachments, List.mem_filter, List.mem_append]
      refine ⟨.inl ha, decide_eq_true fun hdetached => ?_⟩
      exact hnew a (hretained.listed a hdetached) ha
  | becomeReady new =>
    cases hexec
    exact hmove hinv.nodup (Stage.readyFact_of_none rfl) (hinv.others_free rfl)
      fun _ => .inl (hself new rfl).1
  | detached hdetaches interfaces =>
    obtain ⟨⟨detached, hretained⟩, -⟩ := exec_backend hexec (guarantees_detach interfaces hsound)
    refine hmove ?_ (Stage.readyFact_of_none rfl) (hinv.others_apart hdetaches) fun _ => .inr (.inl rfl)
    rw [hretained.attachments]
    exact hinv.nodup.filter _
  | undetached hdetaches interfaces error =>
    obtain ⟨⟨detached, hretained⟩, -⟩ := exec_backend hexec (guarantees_detach interfaces hsound)
    refine hmove ?_ (Stage.readyFact_of_none rfl) (hinv.others_apart hdetaches) fun _ => .inl ?_
    · rw [hretained.attachments]
      exact hinv.nodup.filter _
    · -- The link that did not go is still on record.
      obtain ⟨a, ha, hstays⟩ := hretained.failed (by simp) (hinv.nodup.filter _)
      refine List.ne_nil_of_mem (a := a) ?_
      rw [hretained.attachments, List.mem_filter]
      exact ⟨(List.mem_filter.mp ha).1, decide_eq_true hstays⟩
  | becomeUnready =>
    have hdetaches := (hinv.fits _ (mem_cons_self _ _)).2 rfl
    cases hexec
    exact hmove hinv.nodup (Stage.readyFact_of_none rfl) (hinv.others_apart hdetaches)
      fun hr => (nomatch hr)
  | someLeft hne =>
    cases hexec
    exact hquiet rfl rfl fun _ => .inl hne
  | publish hφ resp => rcases hφ with rfl | rfl <;> exact hquiet rfl rfl (by rintro ⟨⟩)
  | snapshot | mapMaxima | setCapacity | noneLeft => exact hquiet rfl rfl .inr
  | _ => exact hquiet rfl rfl (by rintro ⟨⟩)

end Steps

/-! ## Runs -/

theorem idle_apart {kind : Request → Bool} {threads : List ServiceThread}
    {running : Multiset (Request × Stage)} (hidle : idle kind threads = true)
    (hrunning : ∀ x ∈ running, ∃ t ∈ threads, t.job = x.1 ∧ t.finished = false) :
    ∀ x ∈ running, kind x.1 = false := by
  intro x hx
  obtain ⟨t, ht, hjob, hunfinished⟩ := hrunning x hx
  have hthread := List.all_eq_true.mp hidle t ht
  simpa [hjob, hunfinished] using hthread

section Runs

variable {s : Service} {request : Request} {running : Multiset (Request × Stage)}

theorem ReadyInv.spawn (h : ReadyInv s running)
    (hattach : request.attaches = true → ∀ x ∈ running, x.1.detaches = false)
    (hdetach : request.detaches = true → ∀ x ∈ running, x.1.attaches = false) :
    ReadyInv s ((request, .out) ::ₘ running) where
  linked := h.linked
  lock := h.lock.spawn rfl
  nodup := h.nodup
  apart x hx y hy := by
    rintro ⟨hattaches, hdetaches⟩
    rcases mem_cons.mp hx with rfl | hx <;> rcases mem_cons.mp hy with rfl | hy
    · cases request <;> simp [Request.attaches, Request.detaches] at hattaches hdetaches
    · rw [hattach hattaches y hy] at hdetaches
      cases hdetaches
    · rw [hdetach hdetaches x hx] at hattaches
      cases hattaches
    · exact h.apart x hx y hy ⟨hattaches, hdetaches⟩
  fits x hx := by
    rcases mem_cons.mp hx with rfl | hx
    · exact ⟨by rintro ⟨⟩, by rintro ⟨⟩⟩
    · exact h.fits x hx
  facts x hx := by
    rcases mem_cons.mp hx with rfl | hx
    · exact Stage.readyFact_of_none rfl
    · exact h.facts x hx
  ready hr := (h.ready hr).imp_right fun ⟨x, hx, hphase⟩ => ⟨x, mem_cons_of_mem hx, hphase⟩

theorem ReadyInv.retire (h : ReadyInv s ((request, .out) ::ₘ running)) : ReadyInv s running where
  linked := h.linked
  lock := h.lock.retire rfl
  nodup := h.nodup
  apart x hx y hy := h.apart x (mem_cons_of_mem hx) y (mem_cons_of_mem hy)
  fits x hx := h.fits x (mem_cons_of_mem hx)
  facts x hx := h.facts x (mem_cons_of_mem hx)
  ready hr := (h.ready_cases hr).imp_right fun hwho => hwho.resolve_left (by simp)

end Runs

theorem readyOutline_valid (initial : RuntimeConfig) (maxima : MapMaxima) (logCapacity : Nat) :
    readyOutline.Valid orderedService (Service.new initial maxima logCapacity) := by
  have hkept : readyOutline.Kept serviceMachine Transition :=
    fun _ _ _ _ _ _ _ _ _ _ _ hstep hinv hexec hperm => ReadyInv.step hstep hinv hexec hperm
  refine hkept.valid rfl ?_ (fun _ => .out) (fun _ => moves_code) ?_ ?_ fun _ _ _ _ _ _ => trivial
  · exact
      { linked := ⟨⟨List.nodup_nil, fun h => absurd rfl h⟩, fun a ha => (nomatch ha)⟩
        lock := exclusive_zero
        nodup := List.nodup_nil
        apart := by simp
        fits := by simp
        facts := by simp
        ready := fun hr => (nomatch hr) }
  · intro request s history running threads hinv hadmits hrunning
    have hinv : ReadyInv s running := hinv
    simp only [orderedService, Bool.and_eq_true, Bool.or_eq_true, Bool.not_eq_true'] at hadmits
    refine hinv.spawn (fun hattaches => ?_) fun hdetaches => ?_
    · exact idle_apart (hadmits.1.resolve_left (by simp [hattaches])) hrunning
    · exact idle_apart (hadmits.2.resolve_left (by simp [hdetaches])) hrunning
  · rintro thread request _ value s history rest rfl hinv
    exact ⟨ReadyInv.retire hinv, trivial⟩

/-- **A ready service has something attached**, whenever no request is in progress, if no `Attach`
overlapped a `Detach` and no attach repeated an interface that was not on record. -/
theorem attached_of_ready {initial : RuntimeConfig} {maxima : MapMaxima} {logCapacity : Nat}
    {w : ServiceWorld}
    (hreach : orderedService.Reachable (World.start (Service.new initial maxima logCapacity)) w)
    (hdistinct : ∀ e ∈ w.history, DistinctEvent e) (hquiet : w.quiet = true)
    (hready : w.shared.ready = true) : w.shared.backend.attachments ≠ [] := by
  have hinv : ReadyInv w.shared 0 :=
    (readyOutline_valid initial maxima logCapacity).inv_of_quiet hreach hdistinct hquiet
  rcases hinv.ready hready with hne | ⟨x, hx, -⟩
  · exact hne
  · exact absurd hx (Multiset.notMem_zero x)

/-- The links an event's attach adds, if it is one. -/
def addedLinks (e : ServiceEvent) : List Attachment :=
  match e.op with
  | .backend (.attach _ interfaces) => unrecorded e.before.backend (requested interfaces)
  | _ => []

theorem distinctEvent_of_addedLinks {e : ServiceEvent} (h : (addedLinks e).Nodup) : DistinctEvent e := by
  intro elf interfaces hop
  rwa [addedLinks, hop] at h

/-- The schedule of an `Attach` that succeeds, up to where it has written the configuration. -/
def attachUpToWrite (interfaces : List String) (links : Nat) : List (Action Request (List LinkChoice)) :=
  [.spawn (.attach ⟨"bpf.o", interfaces⟩), .step 0 [], .step 0 (List.replicate links {}), .step 0 [],
    .step 0 [], .step 0 [{}]]

/-- An `Attach` of two interfaces makes the service ready, and it stays so when one is detached again. -/
theorem attached_of_ready_sample : ∃ w : ServiceWorld,
    orderedService.Reachable (World.start sampleService) w ∧ w.shared.ready = true ∧
      w.shared.backend.links = requested ["eth0"] ∧ w.shared.backend.attachments ≠ [] := by
  have hrun : (orderedService.run (World.start sampleService)
      (attachUpToWrite ["eth0", "eth1"] 13 ++ [.step 0 [], .step 0 [],
        .spawn (.detach ⟨["eth1"], false⟩), .step 1 (List.replicate 9 {}), .step 1 []])).any (fun w =>
        w.quiet && w.shared.ready && decide (w.shared.backend.links = requested ["eth0"]) &&
          decide (∀ e ∈ w.history, (addedLinks e).Nodup)) = true := by
    decide +kernel
  obtain ⟨w, hreach, hcheck⟩ := Pool.exists_reachable_of_run hrun
  simp only [Bool.and_eq_true, decide_eq_true_eq] at hcheck
  obtain ⟨⟨⟨hquiet, hready⟩, hlinks⟩, hadded⟩ := hcheck
  exact ⟨w, hreach, hready, hlinks, attached_of_ready hreach
    (fun e he => distinctEvent_of_addedLinks (hadded e he)) hquiet hready⟩

/-- **A service may stay ready with nothing attached**: when everything is detached after an `Attach`
has written the configuration and before it becomes ready, and, with no request beside another, when an
interface that was attached under two records is detached. -/
theorem ready_without_attachments :
    (∃ w : ServiceWorld, service.Reachable (World.start sampleService) w ∧ w.quiet = true ∧
      w.shared.ready = true ∧ w.shared.backend.attachments = []) ∧
    ∃ w : ServiceWorld, orderedService.Reachable (World.start sampleService) w ∧ w.quiet = true ∧
      w.shared.ready = true ∧ w.shared.backend.attachments = [] := by
  constructor
  · have hrun : (service.run (World.start sampleService) (attachUpToWrite ["eth0"] 9 ++
        [.spawn (.detach ⟨[], true⟩), .step 1 (List.replicate 9 {}), .step 1 [], .step 1 [],
          .step 0 [], .step 0 []])).any (fun w =>
        w.quiet && w.shared.ready && decide (w.shared.backend.attachments = [])) = true := by
      decide +kernel
    obtain ⟨w, hreach, hcheck⟩ := Pool.exists_reachable_of_run hrun
    simp only [Bool.and_eq_true, decide_eq_true_eq] at hcheck
    exact ⟨w, hreach, hcheck.1.1, hcheck.1.2, hcheck.2⟩
  · have hrun : (orderedService.run (World.start sampleService) (attachUpToWrite ["eth0", "eth0"] 13 ++
        [.step 0 [], .step 0 [], .spawn (.detach ⟨[], true⟩), .step 1 (List.replicate 9 {})])).any
        (fun w => w.quiet && w.shared.ready && decide (w.shared.backend.attachments = [])) = true := by
      decide +kernel
    obtain ⟨w, hreach, hcheck⟩ := Pool.exists_reachable_of_run hrun
    simp only [Bool.and_eq_true, decide_eq_true_eq] at hcheck
    exact ⟨w, hreach, hcheck.1.1, hcheck.1.2, hcheck.2⟩

end ShadowSocketProxy.ControlService
