import ShadowSocketProxy.ControlService.Service

/-! # Requests run alone

What a request that succeeds has done, when nothing else runs beside it: which links it leaves on
record, and what it leaves published. -/

namespace ShadowSocketProxy.ControlService

open Interleaving
open Interleaving.Machine (wp_mono wp_seq wp_of_all wp_of_yields)
open Interleaving.Program (all_perform_bind all_ite all_ret)

variable {s s' : Service} {α β : Type} {op : ServiceOp} {f : op.Resp → Rpc β}
  {Q : β → Service → Prop} {body : Rpc β} {allowed : ServiceOp → Prop}

/-- What must hold of every answer of a program of the service that runs alone. -/
abbrev Answers (p : Rpc β) (Q : β → Service → Prop) (s : Service) : Prop :=
  serviceMachine.wp (fun _ => True) p Q s

/-- One step, then the rest. -/
theorem answers_take (h : ∀ c resp s', op.exec c s = some (resp, s') → Answers (f resp) Q s') :
    Answers (op.take >>= f) Q s :=
  fun c resp s' _ hexec => h c resp s' hexec

/-- A program under the lock. -/
theorem answers_locked
    (h : Answers body (fun r s' => Q r { s' with transaction := false })
      { s with transaction := true }) :
    Answers (locked body) Q s := by
  refine answers_take fun c _ s₁ hexec => ?_
  rw [ServiceOp.exec, Option.ite_none_left_eq_some] at hexec
  cases hexec.2
  refine wp_seq h fun r s₂ hQ => answers_take fun c _ s₃ hexec => ?_
  cases hexec
  exact hQ

/-! ## Links on record -/

/-- A program that always fails cannot succeed. -/
theorem answers_of_error {p : Rpc (Except Status α)} {Q : α → Service → Prop}
    (h : p.Yields fun r => ∃ status, r = .error status) :
    Answers p (fun r s' => ∀ reply, r = .ok reply → Q reply s') s := by
  refine wp_mono (wp_of_yields h) fun r s' => ?_
  rintro ⟨status, rfl⟩ reply hok
  cases hok

theorem answers_configureAttached (report : AttachReport) (hsound : SoundLinks s.backend) :
    Answers (configureAttached report) (fun r s' => ∀ reply, r = .ok reply →
      reply.success = true ∧ SoundLinks s'.backend ∧ s'.backend.attachments = s.backend.attachments) s := by
  refine answers_take fun c snapshot s₁ hexec => ?_
  obtain ⟨-, rfl⟩ := Prod.mk.inj (Option.some.inj hexec)
  cases snapshot.validateWithMaxima report.maxima with
  | error error => exact answers_of_error fun _ => ⟨_, rfl⟩
  | ok =>
    refine answers_take fun c snapshot s₁ hexec => ?_
    obtain ⟨-, rfl⟩ := Prod.mk.inj (Option.some.inj hexec)
    refine answers_take fun c written s₁ hexec => ?_
    rcases exec_setRuntimeConfig hexec with ⟨rfl, loaded, -, rfl⟩ | ⟨e, rfl, rfl, -⟩
    · refine answers_take fun c _ s₂ hexec => ?_
      cases hexec
      rintro _ ⟨⟩
      exact ⟨rfl, ⟨hsound.nodup, fun _ => rfl⟩, rfl⟩
    · exact answers_of_error fun _ => ⟨_, rfl⟩

/-- An `Attach` that succeeds leaves the requested links on record behind those of before. -/
theorem answers_attach (request : Proto.InterfaceRequest) (hsound : SoundLinks s.backend) :
    Answers (Service.attach request) (fun r s' => ∀ reply, r = .ok reply →
      reply.success = true ∧ SoundLinks s'.backend ∧ s'.backend.attachments =
        s.backend.attachments ++ unrecorded s.backend (requested request.interfaces)) s := by
  refine answers_locked ?_
  split
  · rintro reply hok
    cases hok
  · refine answers_take fun c result s₁ hexec => ?_
    obtain ⟨hresult, -⟩ := exec_backend hexec (guarantees_attach _ request.interfaces hsound)
    cases hresult with
    | error =>
      rintro reply hok
      cases hok
    | ok report hinterfaces hattachments hcreated hloaded hkept hsound' hlinks =>
      refine wp_mono (answers_configureAttached report hsound') fun r s₂ h reply hok => ?_
      obtain ⟨hsuccess, hsound₂, hsame⟩ := h reply hok
      exact ⟨hsuccess, hsound₂, hsame.trans hattachments⟩

/-- A `Detach` of some interfaces that succeeds leaves none of their links on record. -/
theorem answers_detach {interfaces : List String} (hsound : SoundLinks s.backend) :
    Answers (Service.detach ⟨interfaces, false⟩) (fun r s' => ∀ reply, r = .ok reply →
      ∀ a, a ∈ s'.backend.attachments ↔ a ∈ s.backend.attachments ∧ a.interface ∉ interfaces) s := by
  unfold Service.detach
  rw [if_neg (by simp)]
  split
  · rintro reply hok
    cases hok
  · refine answers_take fun c result s₁ hexec => ?_
    obtain ⟨⟨detached, hretained⟩, -⟩ := exec_backend hexec (guarantees_detach (some interfaces) hsound)
    cases result with
    | error e =>
      rintro reply hok
      cases hok
    | ok =>
      have hleft : ∀ a, a ∈ s₁.backend.attachments ↔
          a ∈ s.backend.attachments ∧ a.interface ∉ interfaces := by
        intro a
        rw [hretained.attachments, hretained.complete rfl, selected]
        simp only [List.mem_filter, decide_eq_true_eq, not_and]
        constructor
        · rintro ⟨ha, hout⟩
          exact ⟨ha, hout ha⟩
        · rintro ⟨ha, hout⟩
          exact ⟨ha, fun _ => hout⟩
      refine answers_take fun c attachments s₂ hexec => ?_
      obtain ⟨-, rfl⟩ := Prod.mk.inj (Option.some.inj hexec)
      split
      · refine answers_take fun c _ s₃ hexec => ?_
        cases hexec
        exact fun _ _ => hleft
      · exact fun _ _ => hleft

/-! ## The published configuration -/

/-- Steps that publish nothing. -/
def Silent (op : ServiceOp) : Prop := ∀ next, op ≠ .update next

theorem snapshot_of_silent (hop : Silent op) {c : List LinkChoice} {resp : op.Resp}
    (hexec : op.exec c s = some (resp, s')) : s'.snapshot = s.snapshot := by
  cases op with
  | lock =>
    rw [ServiceOp.exec, Option.ite_none_left_eq_some] at hexec
    cases hexec.2
    rfl
  | backend call =>
    rw [ServiceOp.exec, Option.map_eq_some_iff] at hexec
    obtain ⟨_, -, heq⟩ := hexec
    cases heq
    rfl
  | update next => exact absurd rfl (hop next)
  | _ =>
    cases hexec
    rfl

/-- A program of silent steps leaves the published configuration alone. -/
theorem answers_silent {p : Rpc β} (hp : p.All Silent) :
    Answers p (fun _ s' => s'.snapshot = s.snapshot) s :=
  wp_of_all (I := fun s' : Service => s'.snapshot = s.snapshot)
    (fun _ hop _ _ _ _ _ hs hexec => (snapshot_of_silent hop hexec).trans hs) hp rfl

theorem all_take (hop : allowed op) (hf : ∀ resp, (f resp).All allowed) :
    (op.take >>= f).All allowed := ⟨hop, hf⟩

theorem all_locked (hlock : allowed .lock) (hunlock : allowed .unlock) (hbody : body.All allowed) :
    (locked body).All allowed :=
  all_take hlock fun _ => hbody.bind fun _ => all_take hunlock fun _ => trivial

theorem all_rollBack (report : AttachReport) (message : String) :
    (rollBack report message).All Silent :=
  all_take (by simp [Silent]) fun _ => trivial

theorem all_configureAttached (report : AttachReport) : (configureAttached report).All Silent := by
  refine all_take (by simp [Silent]) fun snapshot => ?_
  split
  · exact (all_rollBack report _).bind fun _ => trivial
  · refine all_take (by simp [Silent]) fun snapshot => all_take (by simp [Silent]) fun written => ?_
    split
    · exact (all_rollBack report _).bind fun _ => trivial
    · exact all_take (by simp [Silent]) fun _ => trivial

theorem all_attach (request : Proto.InterfaceRequest) : (Service.attach request).All Silent := by
  refine all_locked (by simp [Silent]) (by simp [Silent]) ?_
  split
  · trivial
  · refine all_take (by simp [Silent]) fun result => ?_
    split
    · trivial
    · exact all_configureAttached _

theorem all_detach (request : Proto.DetachRequest) : (Service.detach request).All Silent := by
  have hinterfaces : ∀ interfaces, (detachInterfaces interfaces).All Silent := by
    refine fun interfaces => all_take (by simp [Silent]) fun result => ?_
    split
    · trivial
    · refine all_take (by simp [Silent]) fun attachments => ?_
      split
      · exact all_take (by simp [Silent]) fun _ => trivial
      · trivial
  unfold Service.detach
  split
  · exact hinterfaces none
  · split
    · trivial
    · exact hinterfaces _

theorem answers_getConfig :
    Answers Service.getConfig (fun r s' => r = .ok (configToProto s.snapshot) ∧ s' = s) s := by
  refine answers_take fun c snapshot s₁ hexec => ?_
  cases hexec
  exact ⟨rfl, rfl⟩

theorem answers_publish (next : RuntimeConfig) :
    Answers (publish next) (fun r s' => ∀ reply, r = .ok reply →
      ∃ revision, s'.snapshot = { next with revision := revision }) s := by
  refine answers_take fun c updated s₁ hexec => ?_
  have hexec : s.update next = (updated, s₁) := Option.some.inj hexec
  rw [Service.update] at hexec
  split at hexec
  · cases hexec
    rintro reply hok
    cases hok
  · cases hexec
    refine answers_take fun c _ s₂ hexec => ?_
    cases hexec
    exact fun _ _ => ⟨_, rfl⟩

/-- A `SetConfig` that succeeds has published what it was asked for. -/
theorem answers_setConfig (config : Option Proto.Config) :
    Answers (Service.setConfig config) (fun r s' => ∀ reply, r = .ok reply →
      ∃ next revision, runtimeConfigFromProto config = .ok next ∧
        s'.snapshot = { next with revision := revision }) s := by
  refine answers_locked ?_
  cases hnext : runtimeConfigFromProto config with
  | error status =>
    rintro reply hok
    cases hok
  | ok next =>
    have hpublish : ∀ s, Answers (publish next) (fun r s' => ∀ reply, r = .ok reply →
        ∃ next' revision, (.ok next : Except Status RuntimeConfig) = .ok next' ∧
          s'.snapshot = { next' with revision := revision }) s := fun s =>
      wp_mono (answers_publish next) fun r s' h reply hok => by
        obtain ⟨revision, hsnapshot⟩ := h reply hok
        exact ⟨next, revision, rfl, hsnapshot⟩
    refine answers_take fun c snapshot s₁ _ => ?_
    split
    · rintro reply hok
      cases hok
    · refine answers_take fun c maxima s₂ _ => ?_
      split
      · rintro reply hok
        cases hok
      · refine answers_take fun c written s₃ _ => ?_
        split
        · exact hpublish s₃
        · exact hpublish s₃
        · exact hpublish s₃
        · rintro reply hok
          cases hok

end ShadowSocketProxy.ControlService
