import ShadowSocketProxy.HostProxy.Client
import ShadowSocketProxy.Interleaving.Pool

/-! # Activating a proxy

An activation attaches the classifiers to an interface and sets the listener of the proxy as the target
of its family, by reading the whole configuration and writing it back. When it cannot be configured it
detaches the interface. Two activations may lose each other's target, and a failed one may detach what
was attached before it. -/

namespace ShadowSocketProxy.HostProxy

open Interleaving ControlService
open Interleaving.Machine (wp_mono wp_seq returns_of_run run_perform_bind_iff)
open Interleaving.Program (Answer Path path_bind_iff path_perform_bind_iff path_ret_iff)

variable {a b : Activation} {next : RuntimeConfig} {proxy : SocketAddr} {s₀ : Service}
  {answers : List (Answer ClientOp ClientOp.Resp)} {outcome : Outcome}

/-! ## The targets of a message -/

/-- The target of the family of a listener is that listener. -/
def HasTarget (proxy : SocketAddr) (config : RuntimeConfig) : Prop :=
  if proxy.ip.isIpv4 then config.ipv4Target = some proxy else config.ipv6Target = some proxy

/-- The targets of a configuration are those `runtimeConfigFromProto` parses in its message. -/
theorem parse_of_runtimeConfigFromProto {config : Proto.Config}
    (h : runtimeConfigFromProto (some config) = .ok next) :
    parseTarget 4 config.ipv4TargetAddress config.ipv4TargetPort "IPv4 target" = .ok next.ipv4Target ∧
      parseTarget 6 config.ipv6TargetAddress config.ipv6TargetPort "IPv6 target" =
        .ok next.ipv6Target := by
  rw [runtimeConfigFromProto] at h
  split at h
  · cases h
  · cases haddress : parseLabelledAddress config.listenerFamily config.listenerAddress "listener" with
    | error status => rw [haddress] at h; cases h
    | ok address =>
      rw [haddress] at h
      by_cases hport : config.listenerPort.toNat > 65535
      · simp only [hport, if_true] at h
        cases h
      · simp only [hport, if_false] at h
        cases hv4 : parseTarget 4 config.ipv4TargetAddress config.ipv4TargetPort "IPv4 target" with
        | error status => rw [hv4] at h; cases h
        | ok ipv4Target =>
          rw [hv4] at h
          cases hv6 : parseTarget 6 config.ipv6TargetAddress config.ipv6TargetPort
              "IPv6 target" with
          | error status => rw [hv6] at h; cases h
          | ok ipv6Target =>
            rw [hv6] at h
            cases h
            exact ⟨rfl, rfl⟩

/-- **What an activation publishes**, when it was computed from what is published: its own target, and
the target of the other family as it was. -/
theorem withTarget_published {snapshot : RuntimeConfig}
    (h : runtimeConfigFromProto ((configToProto snapshot).config.map (withTarget proxy)) = .ok next) :
    HasTarget proxy next ∧ ∀ other : SocketAddr, other.ip.isIpv4 ≠ proxy.ip.isIpv4 →
      HasTarget other snapshot → HasTarget other next := by
  obtain ⟨hv4, hv6⟩ := parse_of_runtimeConfigFromProto h
  obtain ⟨ip, port⟩ := proxy
  cases ip with
  | v4 octets =>
    have hown : next.ipv4Target = some ⟨.v4 octets, port⟩ := eq_of_parseTarget hv4
    have hother : next.ipv6Target = snapshot.ipv6Target := eq_of_parseTarget hv6
    refine ⟨hown, fun other hfamily => ?_⟩
    have hfamily : other.ip.isIpv4 = false := by simpa [IpAddr.isIpv4] using hfamily
    rw [HasTarget, HasTarget, hfamily, hother]
    exact id
  | v6 octets =>
    have hown : next.ipv6Target = some ⟨.v6 octets, port⟩ := eq_of_parseTarget hv6
    have hother : next.ipv4Target = snapshot.ipv4Target := eq_of_parseTarget hv4
    refine ⟨hown, fun other hfamily => ?_⟩
    have hfamily : other.ip.isIpv4 = true := by simpa [IpAddr.isIpv4] using hfamily
    rw [HasTarget, HasTarget, hfamily, hother]
    exact id

/-! ## Two activations -/

/-- An executed step of a client. -/
abbrev ClientEvent : Type := Event ClientOp ClientOp.Resp Service CallChoice Activation

/-- A world of clients. -/
abbrev ClientWorld : Type :=
  World ClientOp ClientOp.Resp Service CallChoice Activation (Except ProxyError Unit)

/-- Clients that make either of two activations, any number of times. -/
def activations (a b : Activation) :
    Pool ClientOp ClientOp.Resp Service CallChoice Activation (Except ProxyError Unit) where
  machine := clientMachine
  code := activate
  admits job _ := job = a || job = b

/-- A configuration is set as it was computed from the one now published. -/
def UpToDate (e : ClientEvent) : Prop :=
  ∀ config, e.op = .setConfig config →
    config = (configToProto e.before.snapshot).config.map (withTarget e.job.proxy)

/-- A step that has published a configuration. -/
def Publishes (e : ClientEvent) : Prop :=
  ∃ config reply, (⟨e.op, e.resp⟩ : Answer ClientOp ClientOp.Resp) = ⟨.setConfig config, .ok reply⟩

variable {s s' : Service} {e : ClientEvent} {w : ClientWorld}

/-- A step publishes what a `SetConfig` asks for, or leaves what is published. -/
theorem published_cases (hexec : e.op.exec e.choice e.before = some (e.resp, s')) :
    (¬ Publishes e ∧ s'.snapshot = e.before.snapshot) ∨
      ∃ config next revision, e.op = .setConfig config ∧ runtimeConfigFromProto config = .ok next ∧
        s'.snapshot = { next with revision := revision } := by
  obtain ⟨thread, job, choice, op, resp, before⟩ := e
  dsimp only at hexec ⊢
  cases op with
  | setConfig config =>
    rcases boundedRpc_cases hexec (answers_setConfig config) with ⟨e, rfl, rfl⟩ | ⟨reply, -, h⟩
    · refine .inl ⟨?_, rfl⟩
      rintro ⟨_, _, heq⟩
      cases heq
    · obtain ⟨next, revision, hnext, hsnapshot⟩ := h reply rfl
      exact .inr ⟨config, next, revision, rfl, hnext, hsnapshot⟩
  | lock =>
    cases hexec
    refine .inl ⟨?_, rfl⟩
    rintro ⟨_, _, heq⟩
    cases heq
  | attach request =>
    refine .inl ⟨?_, ?_⟩
    · rintro ⟨_, _, heq⟩
      cases heq
    · rcases boundedRpc_cases hexec (answers_silent (all_attach request)) with
        ⟨e, -, rfl⟩ | ⟨reply, -, hsame⟩
      · rfl
      · exact hsame
  | detach request =>
    refine .inl ⟨?_, ?_⟩
    · rintro ⟨_, _, heq⟩
      cases heq
    · rcases boundedRpc_cases hexec (answers_silent (all_detach request)) with
        ⟨e, -, rfl⟩ | ⟨reply, -, hsame⟩
      · rfl
      · exact hsame
  | getConfig =>
    refine .inl ⟨?_, ?_⟩
    · rintro ⟨_, _, heq⟩
      cases heq
    · rcases boundedRpc_cases hexec answers_getConfig with ⟨e, -, rfl⟩ | ⟨reply, -, -, rfl⟩
      · rfl
      · rfl

/-- An `UpToDate` step leaves its own target if it `Publishes`, and keeps it and the other family's.
-/
theorem exec_hasTarget (hfresh : UpToDate e)
    (hexec : e.op.exec e.choice e.before = some (e.resp, s')) :
    (Publishes e → HasTarget e.job.proxy s'.snapshot) ∧
      ∀ other : SocketAddr, (other = e.job.proxy ∨ other.ip.isIpv4 ≠ e.job.proxy.ip.isIpv4) →
        HasTarget other e.before.snapshot → HasTarget other s'.snapshot := by
  rcases published_cases hexec with ⟨hsilent, hsame⟩ | ⟨config, next, revision, hop, hnext, hsnapshot⟩
  · rw [hsame]
    exact ⟨fun h => absurd h hsilent, fun _ _ h => h⟩
  · rw [hfresh config hop] at hnext
    obtain ⟨hown, hother⟩ := withTarget_published hnext
    rw [hsnapshot]
    refine ⟨fun _ => hown, ?_⟩
    rintro other (rfl | hfamily)
    · exact fun _ => hown
    · exact hother other hfamily

/-- The targets that an event `Publishes` stay published. -/
theorem hasTarget_of_publishes (hfamilies : a.proxy.ip.isIpv4 ≠ b.proxy.ip.isIpv4)
    (hreach : (activations a b).Reachable (World.start s₀) w)
    (hfresh : ∀ e ∈ w.history, UpToDate e) :
    ∀ e ∈ w.history, Publishes e → HasTarget e.job.proxy w.shared.snapshot := by
  -- Every step belongs to one of the two activations, whose families differ.
  have key : (∀ t ∈ w.threads, t.job = a ∨ t.job = b) ∧
      ((∀ e ∈ w.history, UpToDate e) → ∀ e ∈ w.history, (e.job = a ∨ e.job = b) ∧
        (Publishes e → HasTarget e.job.proxy w.shared.snapshot)) := by
    refine Pool.Reachable.induction (I := fun w => (∀ t ∈ w.threads, t.job = a ∨ t.job = b) ∧
      ((∀ e ∈ w.history, UpToDate e) → ∀ e ∈ w.history, (e.job = a ∨ e.job = b) ∧
        (Publishes e → HasTarget e.job.proxy w.shared.snapshot))) hreach
      ⟨by simp [World.start], by simp [World.start]⟩ ?_
    rintro w action w' ⟨hjobs, ih⟩ hact
    cases action with
    | spawn job =>
      obtain ⟨hadmits, rfl⟩ := Pool.act_spawn_iff.mp hact
      have hjob : job = a ∨ job = b := by simpa [activations] using hadmits
      refine ⟨fun t ht => ?_, ih⟩
      rcases List.mem_append.mp ht with ht | ht
      · exact hjobs t ht
      · rw [List.mem_singleton.mp ht]
        exact hjob
    | step i c =>
      obtain ⟨job, op, next, resp, s', hthread, hexec, rfl⟩ := Pool.act_step_iff.mp hact
      have hjob : job = a ∨ job = b := hjobs _ (List.mem_of_getElem? hthread)
      refine ⟨fun t ht => ?_, fun hfresh e he => ?_⟩
      · rcases List.mem_or_eq_of_mem_set ht with ht | rfl
        · exact hjobs t ht
        · exact hjob
      · have hstep := exec_hasTarget (hfresh _ List.mem_cons_self) hexec
        rcases List.mem_cons.mp he with rfl | he
        · exact ⟨hjob, hstep.1⟩
        · obtain ⟨hjob', hkept⟩ := ih (fun e he => hfresh e (List.mem_cons_of_mem _ he)) e he
          refine ⟨hjob', fun hpublishes => hstep.2 _ ?_ (hkept hpublishes)⟩
          show e.job.proxy = job.proxy ∨ e.job.proxy.ip.isIpv4 ≠ job.proxy.ip.isIpv4
          rcases hjob with rfl | rfl <;> rcases hjob' with hjob' | hjob' <;> rw [hjob']
          · exact .inl rfl
          · exact .inr hfamilies.symm
          · exact .inr hfamilies
          · exact .inl rfl
  exact fun e he => (key.2 hfresh e he).2

theorem path_configureTarget_ok (h : Path (configureTarget proxy) answers (.ret (.ok ()))) :
    ∃ config reply, ⟨.setConfig config, .ok reply⟩ ∈ answers := by
  obtain ⟨reply, rest, rfl, hreply⟩ := path_perform_bind_iff.mp h
  split at hreply
  · cases (path_ret_iff.mp hreply).2
  · split at hreply
    · cases (path_ret_iff.mp hreply).2
    · obtain ⟨set, rest, rfl, hset⟩ := path_perform_bind_iff.mp hreply
      split at hset
      · cases (path_ret_iff.mp hset).2
      · exact ⟨_, _, .tail _ (.head _)⟩

/-- An `activation` that succeeds has published a configuration. -/
theorem path_activation_configured (h : Path (activation a) answers (.ret .configured)) :
    ∃ config reply, ⟨.setConfig config, .ok reply⟩ ∈ answers := by
  unfold activation at h
  split at h
  · cases (path_ret_iff.mp h).2
  · obtain ⟨locked, rest, rfl, hlocked⟩ := path_perform_bind_iff.mp h
    split at hlocked
    · cases (path_ret_iff.mp hlocked).2
    · obtain ⟨attached, rest, rfl, hattached⟩ := path_perform_bind_iff.mp hlocked
      split at hattached
      · cases (path_ret_iff.mp hattached).2
      · split at hattached
        · cases (path_ret_iff.mp hattached).2
        · obtain ⟨configured, first, second, rfl, hconfigure, hend⟩ := path_bind_iff.mp hattached
          split at hend
          · obtain ⟨config, reply, hmem⟩ := path_configureTarget_ok hconfigure
            exact ⟨config, reply, by simp [hmem]⟩
          · obtain ⟨rollback, rest, rfl, hret⟩ := path_perform_bind_iff.mp hend
            cases (path_ret_iff.mp hret).2

theorem publishes_of_returned {job : Activation} {i : Nat}
    (hreach : (activations a b).Reachable (World.start s₀) w)
    (hreturned : w.returned i = some (job, .ok ())) :
    ∃ e ∈ w.history, Publishes e ∧ e.job = job := by
  have hthread := World.returned_eq_some_iff.mp hreturned
  have hpath : Path (activate job) (w.answers i) (.ret (.ok ())) := hreach.path hthread
  obtain ⟨outcome, first, second, hanswers, hactivation, hret⟩ := path_bind_iff.mp hpath
  obtain ⟨rfl, heq⟩ := path_ret_iff.mp hret
  obtain rfl : outcome = .configured := by
    rcases outcome with e | _ | ⟨e, rollback⟩
    · cases heq
    · rfl
    · cases rollback <;> cases heq
  obtain ⟨config, reply, hmem⟩ := path_activation_configured hactivation
  rw [List.append_nil] at hanswers
  rw [← hanswers] at hmem
  obtain ⟨e, he, hi, hanswer⟩ := World.mem_answers_iff.mp hmem
  obtain ⟨t, ht, hjob⟩ := hreach.job_eq e he
  rw [hi, hthread, Option.some.injEq] at ht
  exact ⟨e, he, ⟨config, reply, hanswer⟩, by rw [← hjob, ← ht]⟩

/-- **Both targets survive** when every configuration is set as it was computed from the one it
replaces. -/
theorem targets_survive {a b : Activation} (ha : a.proxy.ip.isIpv4 = true)
    (hb : b.proxy.ip.isIpv4 = false) {s₀ : Service} {w : ClientWorld}
    (hreach : (activations a b).Reachable (World.start s₀) w) (hfresh : ∀ e ∈ w.history, UpToDate e)
    {i j : Nat} (hi : w.returned i = some (a, .ok ())) (hj : w.returned j = some (b, .ok ())) :
    w.shared.snapshot.ipv4Target = some a.proxy ∧ w.shared.snapshot.ipv6Target = some b.proxy := by
  have hkept := hasTarget_of_publishes (by simp [ha, hb]) hreach hfresh
  obtain ⟨e, he, hpublishes, hjob⟩ := publishes_of_returned hreach hi
  obtain ⟨e', he', hpublishes', hjob'⟩ := publishes_of_returned hreach hj
  have hv4 := hkept e he hpublishes
  have hv6 := hkept e' he' hpublishes'
  rw [hjob, HasTarget, if_pos ha] at hv4
  rw [hjob', HasTarget, if_neg (by simp [hb])] at hv6
  exact ⟨hv4, hv6⟩

/-- A test for steps that are `UpToDate`. -/
def upToDate (e : ClientEvent) : Bool :=
  match e.op with
  | .setConfig config => config = (configToProto e.before.snapshot).config.map (withTarget e.job.proxy)
  | _ => true

/-- What passes the test `upToDate` is `UpToDate`. -/
theorem upToDate_of_test (h : upToDate e = true) : UpToDate e := by
  intro config hop
  rw [upToDate, hop] at h
  exact of_decide_eq_true h

/-- An activation for an IPv4 listener. -/
def sampleIpv4 : Activation := ⟨"bpf.o", "eth0", ⟨.v4 (Bpf.ipv4 10 0 0 3), 3000⟩⟩

/-- An activation for an IPv6 listener. -/
def sampleIpv6 : Activation :=
  ⟨"bpf.o", "eth0", ⟨.v6 #v[253, 0, 0, 0, 0, 0, 0, 0, 0, 0, 0, 0, 0, 0, 0, 3], 3000⟩⟩

/-- A call in which nothing fails. -/
def sampleCall : CallChoice := { steps := List.replicate 9 (List.replicate 9 {}) }

/-- One activation behind the other. -/
theorem targets_survive_sample : ∃ w : ClientWorld,
    (activations sampleIpv4 sampleIpv6).Reachable (World.start sampleService) w ∧
      w.shared.snapshot.ipv4Target = some sampleIpv4.proxy ∧
      w.shared.snapshot.ipv6Target = some sampleIpv6.proxy := by
  have hrun : ((activations sampleIpv4 sampleIpv6).run (World.start sampleService)
      (.spawn sampleIpv4 :: List.replicate 4 (.step 0 sampleCall) ++
        .spawn sampleIpv6 :: List.replicate 4 (.step 1 sampleCall))).any (fun w =>
      w.history.all upToDate && decide (w.returned 0 = some (sampleIpv4, .ok ())) &&
        decide (w.returned 1 = some (sampleIpv6, .ok ()))) = true := by
    decide +kernel
  obtain ⟨w, hreach, hcheck⟩ := Pool.exists_reachable_of_run hrun
  simp only [Bool.and_eq_true, List.all_eq_true, decide_eq_true_eq] at hcheck
  obtain ⟨⟨hfresh, hfirst⟩, hsecond⟩ := hcheck
  exact ⟨w, hreach, targets_survive rfl rfl hreach (fun e he => upToDate_of_test (hfresh e he))
    hfirst hsecond⟩

/-- **A target is lost** when both activations read the configuration before either sets it. -/
theorem target_lost : ∃ w : ClientWorld,
    (activations sampleIpv4 sampleIpv6).Reachable (World.start sampleService) w ∧
      w.returned 0 = some (sampleIpv4, .ok ()) ∧ w.returned 1 = some (sampleIpv6, .ok ()) ∧
      w.shared.snapshot.ipv4Target = none := by
  have hrun : ((activations sampleIpv4 sampleIpv6).run (World.start sampleService)
      (.spawn sampleIpv4 :: .spawn sampleIpv6 :: List.replicate 3 (.step 0 sampleCall) ++
        List.replicate 3 (.step 1 sampleCall) ++ [.step 0 sampleCall, .step 1 sampleCall])).any
      (fun w => decide (w.returned 0 = some (sampleIpv4, .ok ())) &&
        decide (w.returned 1 = some (sampleIpv6, .ok ())) &&
        decide (w.shared.snapshot.ipv4Target = none)) = true := by
    decide +kernel
  obtain ⟨w, hreach, hcheck⟩ := Pool.exists_reachable_of_run hrun
  simp only [Bool.and_eq_true, decide_eq_true_eq] at hcheck
  exact ⟨w, hreach, hcheck.1.1, hcheck.1.2, hcheck.2⟩

/-! ## A failed activation -/

/-- What must hold of every end of a program of a client that runs alone. -/
abbrev Ends {β : Type} (p : Client β) (Q : β → Service → Prop) (s : Service) : Prop :=
  clientMachine.wp (fun _ => True) p Q s

theorem ends_take {β : Type} {op : ClientOp} {f : op.Resp → Client β} {Q : β → Service → Prop}
    (h : ∀ c resp s', op.exec c s = some (resp, s') → Ends (f resp) Q s') :
    Ends (op.take >>= f) Q s :=
  fun c resp s' _ hexec => h c resp s' hexec

/-- `configureTarget` leaves the links alone, if it fails. -/
theorem ends_configureTarget (proxy : SocketAddr) :
    Ends (configureTarget proxy) (fun r s' => ∀ e, r = .error e → s' = s) s := by
  refine ends_take fun c reply s₁ hexec => ?_
  obtain rfl : s₁ = s := by
    rcases boundedRpc_cases hexec answers_getConfig with ⟨e, -, hs⟩ | ⟨reply, -, -, hs⟩
    · exact hs
    · exact hs
  split
  · exact fun _ _ => rfl
  · split
    · exact fun _ _ => rfl
    · refine ends_take fun c set s₂ hexec => ?_
      rcases boundedRpc_cases hexec (answers_setConfig _) with ⟨e, rfl, rfl⟩ | ⟨reply, rfl, -⟩
      · exact fun _ _ => rfl
      · intro e habsurd
        cases habsurd

/-- What an activation that fails leaves on record. -/
def LeavesRecord (a : Activation) (s s' : Service) : Outcome → Prop
  | .refused _ => s'.backend.attachments = s.backend.attachments
  | .rolledBack _ (.ok _) => ∀ x, x ∈ s'.backend.attachments ↔
      x ∈ s.backend.attachments ∧ x.interface ≠ a.interface
  | _ => True

theorem ends_activation (a : Activation) (hsound : SoundLinks s.backend) :
    Ends (activation a) (fun outcome s' => LeavesRecord a s s' outcome) s := by
  unfold activation
  split
  · exact rfl
  · refine ends_take fun c locked s₁ hexec => ?_
    obtain ⟨-, rfl⟩ := Prod.mk.inj (Option.some.inj hexec)
    split
    · exact rfl
    · refine ends_take fun c attached s₁ hexec => ?_
      rcases boundedRpc_cases hexec (answers_attach _ hsound) with ⟨e, rfl, rfl⟩ | ⟨reply, rfl, h⟩
      · exact rfl
      · obtain ⟨hsuccess, hsound₁, hattachments⟩ := h reply rfl
        dsimp only
        rw [if_neg (by simp [hsuccess])]
        refine wp_seq (ends_configureTarget a.proxy) fun configured s₂ hconfigured => ?_
        split
        · trivial
        · obtain rfl := hconfigured _ rfl
          refine ends_take fun c rollback s₃ hexec => ?_
          rcases boundedRpc_cases hexec (answers_detach hsound₁) with ⟨e, rfl, rfl⟩ | ⟨reply, rfl, h⟩
          · trivial
          · -- What this activation has added is on its own interface.
            intro x
            rw [h reply rfl x, hattachments, List.mem_append, List.mem_singleton]
            refine ⟨fun ⟨hx, hout⟩ => ⟨hx.resolve_right fun hnew => hout ?_, hout⟩,
              fun ⟨hx, hout⟩ => ⟨.inl hx, hout⟩⟩
            have hrequested := (mem_unrecorded.mp hnew).1
            simp only [requested, List.flatMap_cons, List.flatMap_nil, List.append_nil,
              List.mem_cons, List.not_mem_nil, or_false] at hrequested
            rcases hrequested with rfl | rfl <;> rfl

/-- An activation that does not get beyond its `Attach`: it is asked for no object or no interface, the
lock of the client cannot be taken, or the call fails. -/
def FailsToAttach (a : Activation) (choices : List CallChoice) (s : Service) : Prop :=
  (a.elfPath.isEmpty ∨ a.interface.isEmpty) ∨ (∃ lock ∈ choices[0]?, lock.lost = true) ∨
    ∃ call ∈ choices[1]?, ∃ error s',
      ClientOp.exec call (.attach ⟨a.elfPath, [a.interface]⟩) s = some (.error error, s')

/-- An activation is refused exactly when it `FailsToAttach`. -/
theorem refused_iff {choices rest : List CallChoice} (hsound : SoundLinks s.backend)
    (hrun : clientMachine.run (activation a) choices s = some (outcome, s', rest)) :
    (∃ e, outcome = .refused e) ↔ FailsToAttach a choices s := by
  unfold activation at hrun
  by_cases hempty : a.elfPath.isEmpty ∨ a.interface.isEmpty
  · rw [if_pos hempty] at hrun
    cases hrun
    exact iff_of_true ⟨_, rfl⟩ (.inl hempty)
  rw [if_neg hempty] at hrun
  obtain ⟨lock, choices, locked, s₁, rfl, hlock, hlocked⟩ := run_perform_bind_iff.mp hrun
  obtain ⟨rfl, rfl⟩ := Prod.mk.inj (Option.some.inj hlock)
  by_cases hlost : lock.lost = true
  · rw [if_pos hlost] at hlocked
    cases hlocked
    exact iff_of_true ⟨_, rfl⟩ (.inr (.inl ⟨lock, rfl, hlost⟩))
  rw [if_neg hlost] at hlocked
  obtain ⟨call, choices, attached, s₁, rfl, hattach, hattached⟩ := run_perform_bind_iff.mp hlocked
  have hattach : ClientOp.exec call (.attach _) s = some (attached, s₁) := hattach
  rcases boundedRpc_cases hattach (answers_attach _ hsound) with ⟨e, rfl, rfl⟩ | ⟨reply, rfl, h⟩
  · cases hattached
    exact iff_of_true ⟨_, rfl⟩ (.inr (.inr ⟨call, rfl, e, _, hattach⟩))
  · refine iff_of_false ?_ ?_
    · obtain ⟨hsuccess, -⟩ := h reply rfl
      simp only [hsuccess, Bool.not_true, Bool.false_eq_true, if_false] at hattached
      rintro ⟨e, rfl⟩
      refine (returns_of_run hattached fun _ _ => trivial).of_wp
        (show Ends _ (fun outcome _ => ∀ e, outcome ≠ .refused e) s₁ from ?_) e rfl
      refine wp_seq (ends_configureTarget a.proxy) fun configured s₂ _ => ?_
      split
      · rintro e ⟨⟩
      · exact ends_take fun _ _ _ _ => by rintro e ⟨⟩
    · rintro (habsurd | ⟨c, hc, habsurd⟩ | ⟨c, hc, e, s₂, habsurd⟩)
      · exact hempty habsurd
      · cases hc
        exact hlost habsurd
      · cases hc
        rw [hattach] at habsurd
        cases habsurd

/-- **When a failed activation leaves the record as it was.** Whatever call fails, if the rollback goes
through, the same links are on record as before the activation exactly if it failed before or at its
`Attach`, or no link of its interface was on record before it. -/
theorem failed_activation_keeps_iff {a : Activation} {outcome : Outcome} {error : ProxyError}
    {choices rest : List CallChoice} (hsound : SoundLinks s.backend)
    (hrun : clientMachine.run (activation a) choices s = some (outcome, s', rest))
    (herror : outcome.result = .error error)
    (hrollback : ∀ e e', outcome ≠ .rolledBack e (.error e')) :
    (∀ x, x ∈ s'.backend.attachments ↔ x ∈ s.backend.attachments) ↔
      FailsToAttach a choices s ∨ ∀ x ∈ s.backend.attachments, x.interface ≠ a.interface := by
  have hleaves : LeavesRecord a s s' outcome :=
    (returns_of_run hrun fun _ _ => trivial).of_wp (ends_activation a hsound)
  rw [← refused_iff hsound hrun]
  rcases outcome with e | _ | ⟨e, rollback⟩
  · have hsame : s'.backend.attachments = s.backend.attachments := hleaves
    rw [hsame]
    simp
  · cases herror
  · cases rollback with
    | error e' => exact absurd rfl (hrollback e e')
    | ok reply =>
      have hleft : ∀ x, x ∈ s'.backend.attachments ↔
          x ∈ s.backend.attachments ∧ x.interface ≠ a.interface := hleaves
      refine ⟨fun h => .inr fun x hx => ((hleft x).mp ((h x).mpr hx)).2, ?_⟩
      rintro (⟨e', habsurd⟩ | hout) x
      · cases habsurd
      · rw [hleft]
        exact ⟨fun h => h.1, fun hx => ⟨hx, hout x hx⟩⟩

/-- The service behind a successful activation. -/
def sampleActivated : Service :=
  ((clientMachine.run (activation sampleIpv4) (List.replicate 4 sampleCall) sampleService).map
    (·.2.1)).getD sampleService

/-- Whether an activation was rolled back. -/
def Outcome.isRolledBack : Outcome → Bool
  | .rolledBack _ (.ok _) => true
  | _ => false

theorem Outcome.of_isRolledBack (h : outcome.isRolledBack = true) :
    ∃ e reply, outcome = .rolledBack e (.ok reply) := by
  rcases outcome with e | _ | ⟨e, rollback⟩
  · cases h
  · cases h
  · cases rollback with
    | error e' => cases h
    | ok reply => exact ⟨e, reply, rfl⟩

/-- The configuration of a first activation cannot be set. -/
theorem failed_activation_keeps_sample : ∃ outcome s',
    clientMachine.Returns (fun _ => True) (activation sampleIpv4) sampleService outcome s' ∧
      outcome.isRolledBack = true ∧
      ∀ x, x ∈ s'.backend.attachments ↔ x ∈ sampleService.backend.attachments := by
  have hrun : (clientMachine.run (activation sampleIpv4)
      (List.replicate 3 sampleCall ++ [{ lost := true }, sampleCall]) sampleService).any
      (fun r => r.1.isRolledBack) = true := by
    decide +kernel
  obtain ⟨⟨outcome, s', rest⟩, hrun, hrolled⟩ := (Option.any_eq_true _ _).mp hrun
  obtain ⟨e, reply, rfl⟩ := Outcome.of_isRolledBack hrolled
  refine ⟨_, s', returns_of_run hrun fun _ _ => trivial, hrolled, (failed_activation_keeps_iff
    ⟨List.nodup_nil, fun h => absurd rfl h⟩ hrun rfl (by rintro _ _ ⟨⟩)).mpr (.inr ?_)⟩
  rintro x ⟨⟩

/-- **A failed activation detaches an interface that was attached before it.** -/
theorem failed_activation_detaches : ∃ outcome s',
    clientMachine.Returns (fun _ => True) (activation sampleIpv6) sampleActivated outcome s' ∧
      outcome.isRolledBack = true ∧
      sampleActivated.backend.attachments = requested ["eth0"] ∧ s'.backend.attachments = [] := by
  have hrun : (clientMachine.run (activation sampleIpv6)
      (List.replicate 3 sampleCall ++ [{ lost := true }, sampleCall]) sampleActivated).any
      (fun r => r.1.isRolledBack && decide (r.2.1.backend.attachments = [])) = true := by
    decide +kernel
  obtain ⟨outcome, s', hret, hcheck⟩ := Machine.exists_returns_of_run (M := clientMachine)
    (fun _ => True) (fun outcome (s' : Service) =>
      Outcome.isRolledBack outcome && decide (s'.backend.attachments = [])) hrun fun _ _ => trivial
  simp only [Bool.and_eq_true, decide_eq_true_eq] at hcheck
  exact ⟨outcome, s', hret, hcheck.1, by decide +kernel, hcheck.2⟩

end ShadowSocketProxy.HostProxy
