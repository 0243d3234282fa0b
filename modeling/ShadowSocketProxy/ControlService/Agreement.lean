import ShadowSocketProxy.ControlService.Transactions

/-! # Agreement of the two configurations

The configuration exists twice: published in the store, and written to the runtime map of the loaded
object. `SetConfig` writes first and publishes second, `Attach` writes what is published; both hold the
transaction lock. The two agree whenever the lock is free, unless the store refuses what has been
written already, or a rollback leaves a link on an object that was never configured. -/

namespace ShadowSocketProxy.ControlService

open Interleaving
open Interleaving.Program (Answer Path path_bind_iff path_perform_bind_iff path_ret_iff)

variable {answers : List (Answer ServiceOp ServiceOp.Resp)} {status : Status} {e : ServiceEvent}
  {interfaces : List String} {next : RuntimeConfig} {config : Option Proto.Config}
  {w : ServiceWorld} {i : Nat}

/-- Two configurations that differ in the revision only. -/
def SameSettings (config snapshot : RuntimeConfig) : Prop :=
  config = { snapshot with revision := config.revision }

/-- The configuration last written to the loaded object. -/
def Service.runtimeConfig (s : Service) : Option RuntimeConfig := s.backend.loaded.bind (·.config)

/-- Whether a program is attached, on record or in the kernel. -/
def Service.Attached (s : Service) : Prop := s.backend.attachments ≠ [] ∨ s.backend.links ≠ []

/-- With a link in the kernel, what was written is what is published. -/
def Agrees (s : Service) : Prop :=
  s.backend.links ≠ [] → ∃ config, s.runtimeConfig = some config ∧ SameSettings config s.snapshot

/-- The steps that cannot tear the two configurations apart. -/
structure Conforming (e : ServiceEvent) : Prop where
  /-- What a `SetConfig` writes to a loaded object the store accepts as well. -/
  write : ∀ config next, e.job = .setConfig config → e.op = .backend (.setRuntimeConfig next) →
    e.before.backend.loaded.isSome → next.validateWithMaxima e.before.maxima = .ok ()
  /-- The rollback inside an attach is refused nothing while no link is there from before. -/
  attach : ∀ elf interfaces, e.op = .backend (.attach elf interfaces) → e.before.backend.links = [] →
    ∀ c ∈ e.choice, c.detach = none
  /-- Nor is the rollback of an attach that could not be configured. -/
  rollback : ∀ created, e.op = .backend (.rollbackAttach created) →
    (∀ a ∈ e.before.backend.links, a ∈ created) → ∀ c ∈ e.choice, c.detach = none

/-! ## Stages -/

/-- What a stage says about the two configurations. -/
def Stage.AgreeFact (s : Service) : Stage → Prop
  | .out | .detached => True
  | .holding | .configured _ => Agrees s
  | .created new => Agrees s ∨ ∀ a ∈ s.backend.links, a ∈ new
  | .read new snapshot => (Agrees s ∨ ∀ a ∈ s.backend.links, a ∈ new) ∧ s.snapshot = snapshot
  | .written next => s.runtimeConfig = some next ∧ next.validateWithMaxima s.maxima = .ok ()
  | .unloaded => s.backend.loaded = none

/-- A stage without the lock has no `AgreeFact`. -/
theorem Stage.agreeFact_of_free {s : Service} {φ : Stage} (h : φ.holds = false) : φ.AgreeFact s := by
  cases φ with
  | out | detached => trivial
  | _ => cases h

/-- The invariant behind the agreement. -/
structure AgreeInv (s : Service) (running : Multiset (Request × Stage)) : Prop where
  linked : Linked s.backend
  lock : Exclusive Stage.holds s.transaction running
  facts : ∀ x ∈ running, x.2.AgreeFact s
  free : s.transaction = false → Agrees s

/-- The outline of the agreement. -/
def agreeOutline : Outline ServiceOp ServiceOp.Resp Service (List LinkChoice) Request Reply Stage where
  inv s _ running := AgreeInv s running
  permitted := Conforming
  ends _ _ φ _ := φ = .out
  settled _ _ _ _ := True

variable {s s' : Service} {request : Request} {φ φ' : Stage} {thread : Nat} {c : List LinkChoice}
  {op : ServiceOp} {resp : op.Resp} {rest : Multiset (Request × Stage)}

theorem AgreeInv.fact (h : AgreeInv s ((request, φ) ::ₘ rest)) : φ.AgreeFact s :=
  h.facts _ (Multiset.mem_cons_self _ _)

/-! ## Steps that change no configuration -/

/-- Some links may have gone; what else matters is as it was. -/
structure Shrinks (s s' : Service) : Prop where
  loaded : s'.backend.loaded = s.backend.loaded
  links : ∀ a ∈ s'.backend.links, a ∈ s.backend.links
  snapshot : s'.snapshot = s.snapshot
  maxima : s'.maxima = s.maxima

theorem Shrinks.agrees (h : Shrinks s s') (hs : Agrees s) : Agrees s' := by
  intro hlinks
  obtain ⟨a, ha⟩ := List.exists_mem_of_ne_nil _ hlinks
  rw [Service.runtimeConfig, h.loaded, h.snapshot]
  exact hs (List.ne_nil_of_mem (h.links a ha))

theorem Shrinks.fact (h : Shrinks s s') (hs : φ.AgreeFact s) : φ.AgreeFact s' := by
  have hcreated : ∀ new : List Attachment, (Agrees s ∨ ∀ a ∈ s.backend.links, a ∈ new) →
      Agrees s' ∨ ∀ a ∈ s'.backend.links, a ∈ new := fun new hcreated =>
    hcreated.imp h.agrees fun hnew a ha => hnew a (h.links a ha)
  cases φ with
  | out | detached => trivial
  | holding | configured => exact h.agrees hs
  | created new => exact hcreated new hs
  | read new snapshot => exact ⟨hcreated new hs.1, h.snapshot.trans hs.2⟩
  | written next =>
    rw [Stage.AgreeFact, Service.runtimeConfig, h.loaded, h.maxima]
    exact hs
  | unloaded => exact h.loaded.trans hs

theorem Shrinks.retained {allowed : LinkChoice → Prop} {l detached : List Attachment}
    {result : Except BackendError Unit}
    (hretained : Retained allowed l s.backend s'.backend detached result)
    (hs' : s' = { s with backend := s'.backend }) : Shrinks s s' := by
  refine ⟨hretained.loaded, fun a ha => ((hretained.links a).mp ha).1, ?_, ?_⟩
  all_goals rw [hs']

/-- Operations that detach links at most. -/
def ServiceOp.calm : ServiceOp → Bool
  | .backend (.detach _) | .attachments | .snapshot | .mapMaxima | .setCapacity _ | .setReady _ => true
  | _ => false

theorem exec_calm (hlinked : Linked s.backend) (hexec : op.exec c s = some (resp, s'))
    (hop : op.calm = true) : Shrinks s s' := by
  cases op with
  | lock | unlock | update => cases hop
  | backend call =>
    cases call with
    | detach interfaces =>
      obtain ⟨⟨detached, hretained⟩, hs'⟩ :=
        exec_backend hexec (guarantees_detach interfaces hlinked.toSoundLinks)
      exact .retained hretained hs'
    | _ => cases hop
  | _ =>
    cases hexec
    exact ⟨rfl, fun _ h => h, rfl, rfl⟩

/-! ## Steps -/

/-- Nothing is refused where nothing may be. -/
theorem not_refusing {choices : List LinkChoice} (h : ∀ c ∈ choices, c.detach = none) :
    ¬ Refusing (· ∈ choices) := by
  rintro ⟨c, hc, hrefused⟩
  exact hrefused (h c hc)

/-- An object with a configuration that differs from the published one in the revision only. -/
theorem agrees_of_written {config : RuntimeConfig} (hconfig : s.runtimeConfig = some config)
    (hsame : SameSettings config s.snapshot) : Agrees s := fun _ => ⟨config, hconfig, hsame⟩

/-- An object with links stays, with its configuration. -/
theorem Agrees.kept (h : Agrees s) (hlinks : s.backend.links ≠ [])
    (hloaded : s.backend.links ≠ [] → s'.backend.loaded = s.backend.loaded)
    (hs' : s' = { s with backend := s'.backend }) : Agrees s' := by
  intro _
  rw [Service.runtimeConfig, hloaded hlinks, show s'.snapshot = s.snapshot by rw [hs']]
  exact h hlinks

/-- What a failed attach leaves: an object as it was, or no link at all. -/
theorem Agrees.of_unattached {e : BackendError} (h : Agrees s)
    (hresult : AttachResult (· ∈ c) interfaces s.backend s'.backend (.error e))
    (hs' : s' = { s with backend := s'.backend })
    (hrefused : s.backend.links = [] → ∀ x ∈ c, x.detach = none) : Agrees s' := by
  cases hresult with
  | error e hattachments hkept hsound hlinks hgone =>
    by_cases hempty : s.backend.links = []
    · -- Everything this call created is gone.
      intro hne
      obtain ⟨a, ha⟩ := List.exists_mem_of_ne_nil _ hne
      have hold := (hgone a ha).resolve_right (not_refusing (hrefused hempty))
      rw [hempty] at hold
      cases hold
    · exact h.kept hempty hkept hs'

/-- What a successful attach leaves: an object as it was, or new links only. -/
theorem Agrees.of_attached {report : AttachReport} (h : Agrees s)
    (hresult : AttachResult (· ∈ c) interfaces s.backend s'.backend (.ok report))
    (hs' : s' = { s with backend := s'.backend }) :
    Agrees s' ∨ ∀ a ∈ s'.backend.links, a ∈ report.created := by
  cases hresult with
  | ok report hinterfaces hattachments hcreated hloaded hkept hsound hlinks =>
    by_cases hempty : s.backend.links = []
    · refine .inr fun a ha => ?_
      rw [hcreated]
      refine ((hlinks a).mp ha).resolve_left fun hold => ?_
      rw [hempty] at hold
      cases hold
    · exact .inl (h.kept hempty hkept hs')

/-- **Every `Transition` keeps `AgreeInv`.** -/
theorem AgreeInv.step (hstep : Transition request φ op resp φ')
    (hinv : AgreeInv s ((request, φ) ::ₘ rest)) (hexec : op.exec c s = some (resp, s'))
    (hperm : Conforming ⟨thread, request, c, op, resp, s⟩) : AgreeInv s' ((request, φ') ::ₘ rest) := by
  have hfact := hinv.fact
  have hlinked := linked_of_exec hinv.linked hexec
  have hlock := hstep.exclusive hinv.lock hexec
  -- With the lock nobody else's stage says anything.
  have hhold : φ'.holds = true → φ'.AgreeFact s' → AgreeInv s' ((request, φ') ::ₘ rest) := by
    refine fun hφ' hfact' => ⟨hlinked, hlock, fun x hx => ?_, fun hfree => ?_⟩
    · rcases Multiset.mem_cons.mp hx with rfl | hx
      · exact hfact'
      · exact Stage.agreeFact_of_free (hlock.alone hφ' x hx)
    · rw [hlock.taken hφ'] at hfree
      cases hfree
  have hcalm : op.calm = true → (φ.AgreeFact s' → φ'.AgreeFact s') →
      AgreeInv s' ((request, φ') ::ₘ rest) := by
    intro hop hfact'
    have hshrinks := exec_calm hinv.linked hexec hop
    refine ⟨hlinked, hlock, fun x hx => ?_, fun hfree => ?_⟩
    · rcases Multiset.mem_cons.mp hx with rfl | hx
      · exact hfact' (hshrinks.fact hfact)
      · exact hshrinks.fact (hinv.facts x (Multiset.mem_cons_of_mem hx))
    · rw [exec_transaction hexec (by rintro rfl; cases hop) (by rintro rfl; cases hop)] at hfree
      exact hshrinks.agrees (hinv.free hfree)
  cases hstep with
  | lock =>
    obtain ⟨hfree, rfl⟩ := exec_lock hexec
    exact hhold rfl (hinv.free hfree)
  | unlock =>
    cases hexec
    refine ⟨hlinked, hlock, fun x hx => ?_, fun _ => hfact⟩
    rcases Multiset.mem_cons.mp hx with rfl | hx
    · trivial
    · exact Stage.agreeFact_of_free (hinv.lock.alone rfl x hx)
  | attached _ elf interfaces report =>
    obtain ⟨hresult, hs'⟩ :=
      exec_backend hexec (guarantees_attach elf interfaces hinv.linked.toSoundLinks)
    exact hhold rfl (Agrees.of_attached hfact hresult hs')
  | unattached _ elf interfaces error =>
    obtain ⟨hresult, hs'⟩ :=
      exec_backend hexec (guarantees_attach elf interfaces hinv.linked.toSoundLinks)
    exact hhold rfl (Agrees.of_unattached hfact hresult hs' (hperm.attach elf interfaces rfl))
  | rollback new resp =>
    obtain ⟨⟨detached, hretained⟩, hs'⟩ :=
      exec_backend hexec (guarantees_detachAndRetain _ new hinv.linked.toSoundLinks)
    have hshrinks : Shrinks s s' := .retained hretained hs'
    refine hhold rfl ?_
    rcases hfact with hagrees | hnew
    · exact hshrinks.agrees hagrees
    · intro hne
      obtain ⟨a, ha⟩ := List.exists_mem_of_ne_nil _ hne
      have hrefusing := hretained.refused a (hnew a (hshrinks.links a ha)) ha
      exact absurd hrefusing (not_refusing (hperm.rollback new rfl hnew))
  | read new snapshot =>
    cases hexec
    exact hhold rfl ⟨hfact, rfl⟩
  | configured new snapshot =>
    rcases exec_setRuntimeConfig hexec with ⟨-, loaded, hloaded, rfl⟩ | ⟨_, herror, -⟩
    · exact hhold rfl (agrees_of_written rfl (by rw [SameSettings, ← hfact.2]))
    · cases herror
  | unconfigured new snapshot error =>
    rcases exec_setRuntimeConfig hexec with ⟨hok, -⟩ | ⟨-, -, rfl, -⟩
    · cases hok
    · exact hhold rfl hfact.1
  | written hset next =>
    rcases exec_setRuntimeConfig hexec with ⟨-, loaded, hloaded, rfl⟩ | ⟨_, herror, -⟩
    · exact hhold rfl ⟨rfl, hperm.write _ next hset rfl (by rw [hloaded]; rfl)⟩
    · cases herror
  | unloaded _ next herror =>
    rcases exec_setRuntimeConfig hexec with
      ⟨hok, -⟩ | ⟨_, heq, rfl, ⟨-, hnone⟩ | ⟨hattached, hsupported⟩⟩
    · cases hok
    · exact hhold rfl hnone
    · cases heq
      exact absurd herror (not_or.mpr ⟨hattached, hsupported⟩)
  | unwritten _ next error =>
    rcases exec_setRuntimeConfig hexec with ⟨hok, -⟩ | ⟨-, -, rfl, -⟩
    · cases hok
    · exact hhold rfl hfact
  | publish hφ resp =>
    refine hhold rfl ?_
    rcases hφ with rfl | rfl
    · rcases exec_update hexec with ⟨_, -, -, herror⟩ | ⟨_, -, rfl⟩
      · rw [hfact.2] at herror
        cases herror
      · exact agrees_of_written hfact.1 rfl
    · -- Without a loaded object there are no links.
      have hunlinked : s.backend.links = [] := by
        by_contra hlinks
        have := hinv.linked.loaded hlinks
        rw [show s.backend.loaded = none from hfact] at this
        cases this
      rcases exec_update hexec with ⟨_, -, rfl, -⟩ | ⟨_, -, rfl⟩ <;>
        exact fun hlinks => absurd hunlinked hlinks
  | _ => exact hcalm rfl fun h => h

theorem agreeOutline_valid (initial : RuntimeConfig) (maxima : MapMaxima) (logCapacity : Nat) :
    agreeOutline.Valid service (Service.new initial maxima logCapacity) := by
  have hkept : agreeOutline.Kept serviceMachine Transition :=
    fun _ _ _ _ _ _ _ _ _ _ _ hstep hinv hexec hperm => AgreeInv.step hstep hinv hexec hperm
  refine hkept.valid rfl ?_ (fun _ => .out) (fun _ => moves_code) ?_ ?_ fun _ _ _ _ _ _ => trivial
  · exact
      { linked := ⟨⟨List.nodup_nil, fun h => absurd rfl h⟩, fun a ha => (nomatch ha)⟩
        lock := exclusive_zero
        facts := by simp
        free := fun _ hlinks => absurd rfl hlinks }
  · intro request s history running threads hinv _ _
    have hinv : AgreeInv s running := hinv
    refine ⟨hinv.linked, hinv.lock.spawn rfl, fun x hx => ?_, hinv.free⟩
    rcases Multiset.mem_cons.mp hx with rfl | hx
    · trivial
    · exact hinv.facts x hx
  · rintro thread request _ value s history rest rfl hinv
    have hinv : AgreeInv s ((request, .out) ::ₘ rest) := hinv
    exact ⟨⟨hinv.linked, hinv.lock.retire rfl, fun x hx => hinv.facts x (Multiset.mem_cons_of_mem hx),
      hinv.free⟩, trivial⟩

/-! ## Failed changes -/

/-- Answers of steps that changed neither configuration nor the log. -/
def Harmless : Answer ServiceOp ServiceOp.Resp → Prop
  | ⟨.lock, _⟩ => True
  | ⟨.unlock, _⟩ => True
  | ⟨.mapMaxima, _⟩ => True
  | ⟨.snapshot, _⟩ => True
  | ⟨.backend (.setRuntimeConfig _), .error _⟩ => True
  | ⟨.update _, .error _⟩ => True
  | _ => False

/-- A configuration was written and then refused by the store. -/
def Torn (answers : List (Answer ServiceOp ServiceOp.Resp)) : Prop :=
  ∃ next error, ⟨.backend (.setRuntimeConfig next), .ok ()⟩ ∈ answers ∧
    ⟨.update next, .error error⟩ ∈ answers

/-- `publish` fails at the update or not at all. -/
theorem path_publish_error (h : Path (publish next) answers (.ret (.error status))) :
    ∃ error, answers = [⟨.update next, .error error⟩] := by
  obtain ⟨updated, rest, rfl, hupdated⟩ := path_perform_bind_iff.mp h
  cases updated with
  | error error =>
    obtain ⟨rfl, -⟩ := path_ret_iff.mp hupdated
    exact ⟨error, rfl⟩
  | ok updated =>
    obtain ⟨_, rest, rfl, hcapacity⟩ := path_perform_bind_iff.mp hupdated
    obtain ⟨-, heq⟩ := path_ret_iff.mp hcapacity
    cases heq

theorem path_changeConfig_error (h : Path (changeConfig next) answers (.ret (.error status))) :
    (∀ a ∈ answers, Harmless a) ∨ Torn answers := by
  obtain ⟨snapshot, rest, rfl, hsnapshot⟩ := path_perform_bind_iff.mp h
  split at hsnapshot
  · obtain ⟨rfl, -⟩ := path_ret_iff.mp hsnapshot
    exact .inl (by simp [Harmless])
  · obtain ⟨maxima, rest, rfl, hmaxima⟩ := path_perform_bind_iff.mp hsnapshot
    split at hmaxima
    · obtain ⟨rfl, -⟩ := path_ret_iff.mp hmaxima
      exact .inl (by simp [Harmless])
    · obtain ⟨written, rest, rfl, hwritten⟩ := path_perform_bind_iff.mp hmaxima
      split at hwritten
      · obtain ⟨error, rfl⟩ := path_publish_error hwritten
        exact .inr ⟨next, error, by simp, by simp⟩
      · obtain ⟨error, rfl⟩ := path_publish_error hwritten
        exact .inl (by simp [Harmless])
      · obtain ⟨error, rfl⟩ := path_publish_error hwritten
        exact .inl (by simp [Harmless])
      · obtain ⟨rfl, -⟩ := path_ret_iff.mp hwritten
        exact .inl (by simp [Harmless])

theorem path_setConfig_error (h : Path (Service.setConfig config) answers (.ret (.error status))) :
    (∀ a ∈ answers, Harmless a) ∨ Torn answers := by
  obtain ⟨_, rest, rfl, hlocked⟩ := path_perform_bind_iff.mp h
  obtain ⟨result, first, second, rfl, hbody, hrest⟩ := path_bind_iff.mp hlocked
  obtain ⟨_, rest, rfl, hret⟩ := path_perform_bind_iff.mp hrest
  obtain ⟨rfl, heq⟩ := path_ret_iff.mp hret
  cases heq
  have hbody : (∀ a ∈ first, Harmless a) ∨ Torn first := by
    split at hbody
    · obtain ⟨rfl, -⟩ := path_ret_iff.mp hbody
      exact .inl (by simp)
    · exact path_changeConfig_error hbody
  rcases hbody with hharmless | ⟨next, error, hwrite, hupdate⟩
  · refine .inl fun a ha => ?_
    rcases List.mem_cons.mp ha with rfl | ha
    · trivial
    · rcases List.mem_append.mp ha with ha | ha
      · exact hharmless a ha
      · rw [List.mem_singleton.mp ha]
        trivial
  · exact .inr ⟨next, error, by simp [hwrite], by simp [hupdate]⟩

/-- A step that leaves both configurations and the capacity of the log as they were. -/
def Unchanging (e : ServiceEvent) : Prop :=
  ∃ s', ServiceOp.exec e.choice e.op e.before = some (e.resp, s') ∧
    s'.runtimeConfig = e.before.runtimeConfig ∧ s'.snapshot = e.before.snapshot ∧
    s'.logCapacity = e.before.logCapacity

theorem unchanging_of_harmless (hexec : ServiceOp.exec e.choice e.op e.before = some (e.resp, s'))
    (hharmless : Harmless ⟨e.op, e.resp⟩) : Unchanging e := by
  refine ⟨s', hexec, ?_⟩
  obtain ⟨thread, job, choice, op, resp, before⟩ := e
  dsimp only at hexec hharmless ⊢
  unfold Harmless at hharmless
  split at hharmless
  · rename_i heq
    cases heq
    obtain ⟨-, rfl⟩ := exec_lock hexec
    exact ⟨rfl, rfl, rfl⟩
  · rename_i heq
    cases heq
    cases hexec
    exact ⟨rfl, rfl, rfl⟩
  · rename_i heq
    cases heq
    cases hexec
    exact ⟨rfl, rfl, rfl⟩
  · rename_i heq
    cases heq
    cases hexec
    exact ⟨rfl, rfl, rfl⟩
  · rename_i heq
    cases heq
    rcases exec_setRuntimeConfig hexec with ⟨habsurd, -⟩ | ⟨-, -, rfl, -⟩
    · cases habsurd
    · exact ⟨rfl, rfl, rfl⟩
  · rename_i heq
    cases heq
    rcases exec_update hexec with ⟨_, -, rfl, -⟩ | ⟨_, habsurd, -⟩
    · exact ⟨rfl, rfl, rfl⟩
    · cases habsurd
  · exact hharmless.elim

/-- The store's capacities are never changed. -/
theorem exec_maxima {c : List LinkChoice} {op : ServiceOp} {resp : op.Resp}
    (hexec : op.exec c s = some (resp, s')) : s'.maxima = s.maxima := by
  cases op with
  | lock =>
    obtain ⟨-, rfl⟩ := exec_lock hexec
    rfl
  | backend call =>
    rw [ServiceOp.exec, Option.map_eq_some_iff] at hexec
    obtain ⟨_, -, heq⟩ := hexec
    cases heq
    rfl
  | update next => rcases exec_update hexec with ⟨_, -, rfl, -⟩ | ⟨_, -, rfl⟩ <;> rfl
  | _ =>
    cases hexec
    rfl

/-- What has been written the store does not refuse. -/
theorem not_torn {s₀ : Service} {reply : Reply} (hreach : service.Reachable (World.start s₀) w)
    (hconforming : ∀ e ∈ w.history, Conforming e)
    (hreturned : w.returned i = some (.setConfig config, reply)) : ¬ Torn (w.answers i) := by
  rintro ⟨next, error, hwrite, hupdate⟩
  have hjob : ∀ e ∈ w.history, e.thread = i → e.job = .setConfig config := by
    rintro e he rfl
    obtain ⟨t, ht, hjob⟩ := hreach.job_eq e he
    rw [World.returned_eq_some_iff.mp hreturned, Option.some.injEq] at ht
    rw [← hjob, ← ht]
  have hmaxima := (hreach.unchanged (f := Service.maxima) fun _ _ _ _ _ h => exec_maxima h).2
  obtain ⟨e, he, hthread, hanswer⟩ := World.mem_answers_iff.mp hwrite
  obtain ⟨e', he', -, hanswer'⟩ := World.mem_answers_iff.mp hupdate
  obtain ⟨s₁, hexec⟩ := hreach.executed e he
  obtain ⟨s₂, hexec'⟩ := hreach.executed e' he'
  have hsame : e.before.maxima = e'.before.maxima := (hmaxima e he).trans (hmaxima e' he').symm
  have hwritten := (hconforming e he).write config next (hjob e he hthread)
  obtain ⟨thread, job, choice, op, resp, before⟩ := e
  obtain ⟨thread', job', choice', op', resp', before'⟩ := e'
  cases hanswer
  cases hanswer'
  rcases exec_setRuntimeConfig hexec with ⟨-, loaded, hloaded, -⟩ | ⟨e, habsurd, -⟩
  · have hvalid := hwritten rfl (by rw [hloaded]; rfl)
    rcases exec_update (c := choice') hexec' with ⟨_, -, -, herror⟩ | ⟨_, habsurd, -⟩
    · rw [hsame, herror] at hvalid
      cases hvalid
    · cases habsurd
  · cases habsurd

/-- **The published configuration and the one in the runtime map agree** in every interleaving of
requests whose steps all conform: whenever the transaction lock is free and a program is attached, they
differ in the revision only. A `SetConfig` that fails changes neither of them, nor the log. -/
theorem configurations_agree {initial : RuntimeConfig} {maxima : MapMaxima} {logCapacity : Nat}
    {w : ServiceWorld}
    (hreach : service.Reachable (World.start (Service.new initial maxima logCapacity)) w)
    (hconforming : ∀ e ∈ w.history, Conforming e) :
    (w.shared.transaction = false → w.shared.Attached →
      ∃ config, w.shared.runtimeConfig = some config ∧ SameSettings config w.shared.snapshot) ∧
    ∀ i config status, w.returned i = some (.setConfig config, .config (.error status)) →
      ∀ e ∈ w.history, e.thread = i → Unchanging e := by
  constructor
  · intro hfree hattached
    obtain ⟨running, hinv⟩ :=
      (agreeOutline_valid initial maxima logCapacity).inv hreach hconforming
    have hinv : AgreeInv w.shared running := hinv
    refine hinv.free hfree (hattached.elim (fun hrecorded => ?_) id)
    obtain ⟨a, ha⟩ := List.exists_mem_of_ne_nil _ hrecorded
    exact List.ne_nil_of_mem (hinv.linked.recorded a ha)
  · rintro i config status hreturned e he rfl
    have hpath := hreach.path (World.returned_eq_some_iff.mp hreturned)
    obtain ⟨result, first, second, hanswers, hsetConfig, hret⟩ := path_bind_iff.mp hpath
    obtain ⟨rfl, heq⟩ := path_ret_iff.mp hret
    cases heq
    rw [List.append_nil] at hanswers
    have hharmless : ∀ a ∈ w.answers e.thread, Harmless a := by
      rw [← hanswers] at hsetConfig
      exact (path_setConfig_error hsetConfig).resolve_right (not_torn hreach hconforming hreturned)
    obtain ⟨s', hexec⟩ := hreach.executed e he
    exact unchanging_of_harmless hexec (hharmless _ (World.mem_answers_iff.mpr ⟨e, he, rfl, rfl⟩))

/-- A test for steps that conform. -/
def conforms (e : ServiceEvent) : Bool :=
  match e.op with
  | .backend (.setRuntimeConfig next) => decide (next.validateWithMaxima e.before.maxima = .ok ())
  | .backend (.attach _ _) => e.choice.all (·.detach.isNone)
  | .backend (.rollbackAttach _) => e.choice.all (·.detach.isNone)
  | _ => true

theorem conforming_of_conforms (h : conforms e = true) :
    Conforming e where
  write config next _ hop _ := by
    rw [conforms, hop] at h
    exact of_decide_eq_true h
  attach elf interfaces hop _ c hc := by
    rw [conforms, hop] at h
    simpa using List.all_eq_true.mp h c hc
  rollback created hop _ c hc := by
    rw [conforms, hop] at h
    simpa using List.all_eq_true.mp h c hc

instance (config snapshot : RuntimeConfig) : Decidable (SameSettings config snapshot) :=
  inferInstanceAs (Decidable (_ = _))

/-- A whole `Attach` on its own, of an object with the given capacities. -/
def attachWith (maxima : MapMaxima) : List (Action Request (List LinkChoice)) :=
  [.spawn (.attach ⟨"bpf.o", ["eth0"]⟩), .step 0 [], .step 0 (List.replicate 9 { maxima := maxima }),
    .step 0 [], .step 0 [], .step 0 [{}], .step 0 [], .step 0 []]

/-- A whole `SetConfig` on its own. -/
def setWith (config : RuntimeConfig) : List (Action Request (List LinkChoice)) :=
  [.spawn (.setConfig (configToProto config).config), .step 1 [], .step 1 [], .step 1 [], .step 1 [{}],
    .step 1 []]

/-- A flow capacity beyond what the shipped object has room for. -/
def sampleLarge : RuntimeConfig := { RuntimeConfig.default with activeFlowCapacity := 10000 }

/-- An attached program with a new target. -/
theorem configurations_agree_sample : ∃ w : ServiceWorld,
    service.Reachable (World.start sampleService) w ∧ w.shared.Attached ∧
      w.shared.snapshot.activeFlowCapacity = 17 ∧
      ∃ config, w.shared.runtimeConfig = some config ∧ SameSettings config w.shared.snapshot := by
  have hrun : (service.run (World.start sampleService) (attachWith MapMaxima.default ++
      setWith { RuntimeConfig.default with activeFlowCapacity := 17 } ++
        [.step 1 [], .step 1 []])).any (fun w =>
      w.history.all conforms && !w.shared.transaction && !w.shared.backend.links.isEmpty &&
        decide (w.shared.snapshot.activeFlowCapacity = 17)) = true := by
    decide +kernel
  obtain ⟨w, hreach, hcheck⟩ := Pool.exists_reachable_of_run hrun
  simp only [Bool.and_eq_true, Bool.not_eq_true', List.all_eq_true, decide_eq_true_eq,
    List.isEmpty_eq_false_iff] at hcheck
  obtain ⟨⟨⟨hconforms, hfree⟩, hlinks⟩, hcapacity⟩ := hcheck
  exact ⟨w, hreach, .inr hlinks, hcapacity, (configurations_agree hreach
    fun e he => conforming_of_conforms (hconforms e he)).1 hfree (.inr hlinks)⟩

/-- Whether a thread was a `SetConfig` that failed. -/
def failedSet (w : ServiceWorld) (i : Nat) : Bool :=
  match w.returned i with
  | some (.setConfig _, .config (.error _)) => true
  | _ => false

theorem exists_of_failedSet (h : failedSet w i = true) :
    ∃ config status, w.returned i = some (.setConfig config, .config (.error status)) := by
  rw [failedSet] at h
  split at h
  · rename_i hreturned
    exact ⟨_, _, hreturned⟩
  · cases h

/-- Whether a step has changed the runtime map. -/
def rewritesMap (e : ServiceEvent) : Bool :=
  (ServiceOp.exec e.choice e.op e.before).any fun r => r.2.runtimeConfig ≠ e.before.runtimeConfig

theorem not_unchanging (h : rewritesMap e = true) : ¬ Unchanging e := by
  rintro ⟨s', hexec, hsame, -⟩
  rw [rewritesMap, hexec] at h
  simp [hsame] at h

/-- **The two configurations come apart**: the store refuses what `SetConfig` has already written to an
object that has more room, and a refused rollback leaves an unconfigured program attached. -/
theorem configurations_torn :
    (∃ w : ServiceWorld, service.Reachable (World.start sampleService) w ∧
      (∃ config status, w.returned 1 = some (.setConfig config, .config (.error status))) ∧
      (∃ e ∈ w.history, e.thread = 1 ∧ ¬ Unchanging e) ∧
      w.shared.transaction = false ∧ w.shared.Attached ∧
      ∃ config, w.shared.runtimeConfig = some config ∧ ¬ SameSettings config w.shared.snapshot) ∧
    ∃ w : ServiceWorld, service.Reachable (World.start sampleService) w ∧
      w.shared.transaction = false ∧ w.shared.Attached ∧ w.shared.runtimeConfig = none := by
  constructor
  · have hrun : (service.run (World.start sampleService) (attachWith ⟨65536, 65536⟩ ++
        setWith sampleLarge ++ [.step 1 []])).any (fun w =>
        failedSet w 1 && (w.history.any fun e => e.thread == 1 && rewritesMap e) &&
          !w.shared.transaction && !w.shared.backend.links.isEmpty &&
          w.shared.runtimeConfig.any fun config => decide (¬ SameSettings config w.shared.snapshot)) =
        true := by
      decide +kernel
    obtain ⟨w, hreach, hcheck⟩ := Pool.exists_reachable_of_run hrun
    simp only [Bool.and_eq_true, Bool.not_eq_true', List.any_eq_true, beq_iff_eq, decide_eq_true_eq,
      List.isEmpty_eq_false_iff, Option.any_eq_true] at hcheck
    obtain ⟨⟨⟨⟨hfailed, e, he, hthread, hrewrites⟩, hfree⟩, hlinks⟩, config, hconfig, hdiffers⟩ := hcheck
    exact ⟨w, hreach, exists_of_failedSet hfailed, ⟨e, he, hthread, not_unchanging hrewrites⟩, hfree,
      .inr hlinks, config, hconfig, hdiffers⟩
  · -- The object is too small, and its link cannot be taken back.
    have hrun : (service.run (World.start sampleService)
        [.spawn (.attach ⟨"bpf.o", ["eth0"]⟩), .step 0 [],
          .step 0 (List.replicate 9 { maxima := ⟨3, 1⟩ }), .step 0 [],
          .step 0 (List.replicate 3 { detach := some "busy" }), .step 0 []]).any (fun w =>
        !w.shared.transaction && !w.shared.backend.links.isEmpty && w.shared.runtimeConfig.isNone) =
        true := by
      decide +kernel
    obtain ⟨w, hreach, hcheck⟩ := Pool.exists_reachable_of_run hrun
    simp only [Bool.and_eq_true, Bool.not_eq_true', List.isEmpty_eq_false_iff,
      Option.isNone_iff_eq_none] at hcheck
    exact ⟨w, hreach, hcheck.1.1, .inr hcheck.1.2, hcheck.2⟩

end ShadowSocketProxy.ControlService
