import Seaturtle.Lib.Runs
import Seaturtle.Proxy.ConfigService

/-! The services against Java's current config, over every interleaving. -/
namespace Seaturtle.ProxyRuns

inductive Event where
  | changeConfig (config : Jni.ProxyConfig)
  /-- Java sends its oldest unsent change; `SetConfig` posts it. -/
  | sendChanged
  /-- The IO thread runs the oldest config task. -/
  | runTask
  | constructService (ptr : Nat)
  | destroyService (ptr : Nat)
  | addObserver (ptr observer : Nat)
  | removeObserver (ptr observer : Nat)
  deriving DecidableEq

variable {Rules : Type} (parse : Str → Rules)

/-- A new service is at an address where none is live; an old address may come back. -/
def step (p : ProxySystem Rules) : Event → Option (ProxySystem Rules)
  | .changeConfig config => some (p.changeConfig config)
  | .sendChanged =>
    match p.unsent with
    | [] => none
    | config :: unsent => some ({ p with unsent }.setConfig config)
  | .runTask =>
    match p.queue with
    | [] => none
    | config :: queue => some ({ p with queue }.setAllConfigsOnNetworkThread parse config)
  | .constructService ptr =>
    if (p.services ptr).isNone then some (p.constructService parse ptr) else none
  | .destroyService ptr => if (p.services ptr).isSome then some (p.destroyService ptr) else none
  | .addObserver ptr o =>
    (p.services ptr).map fun s => { p with services := p.services.set ptr (s.addObserver o) }
  | .removeObserver ptr o =>
    (p.services ptr).map fun s => { p with services := p.services.set ptr (s.removeObserver o) }

def initial (current : Jni.ProxyConfig) : ProxySystem Rules := { current }

/-- The changes that have not reached the services, in the order they arrive. -/
def inFlight (p : ProxySystem Rules) : List Jni.ProxyConfig := p.queue ++ p.unsent

def Registered (p : ProxySystem Rules) : Prop :=
  p.allConfigs.Nodup ∧ ∀ ptr, ptr ∈ p.allConfigs ↔ (p.services ptr).isSome = true

/-- What `GetLatestProxyConfig` of every live service returns is Java's current config. -/
def Converged (p : ProxySystem Rules) : Prop :=
  ∀ ptr s, p.services ptr = some s →
    s.getLatestProxyConfig = (.configValid, some ⟨parse p.current.config⟩)

/-- The last change in flight is the current config; where none is in flight, the
services have it. -/
structure Settling (p : ProxySystem Rules) : Prop where
  registered : Registered p
  newest : ∀ config ∈ (inFlight p).getLast?, config = p.current
  settled : inFlight p = [] → p.current.state = .valid → Converged parse p

variable {parse} {p p' : ProxySystem Rules}

theorem setConfig_latest (s : ProxyConfigService Rules) {config : Jni.ProxyConfig}
    (valid : config.state = .valid) :
    (s.setConfigOnNetworkThread parse config).2.getLatestProxyConfig =
      (.configValid, some ⟨parse config.config⟩) := by
  simp [ProxyConfigService.setConfigOnNetworkThread, ProxyConfigService.getLatestProxyConfig, valid]

theorem modifyService_apply (services : HashMap Nat (ProxyConfigService Rules)) (ptr q : Nat)
    (f : ProxyConfigService Rules → ProxyConfigService Rules) :
    ProxySystem.modifyService services ptr f q =
      if q = ptr then (services q).map f else services q := by
  unfold ProxySystem.modifyService
  cases found : services ptr with
  | none =>
    by_cases here : q = ptr
    · simp [here, found]
    · simp [here]
  | some s =>
    by_cases here : q = ptr
    · simp [here, found, HashMap.set_apply]
    · simp [here, HashMap.set_apply]

/-- The loop over `all_configs_` reaches each registered service once. -/
theorem foldl_modifyService (f : ProxyConfigService Rules → ProxyConfigService Rules)
    (ptrs : List Nat) (once : ptrs.Nodup) (services : HashMap Nat (ProxyConfigService Rules))
    (q : Nat) :
    ptrs.foldl (fun services ptr => ProxySystem.modifyService services ptr f) services q =
      if q ∈ ptrs then (services q).map f else services q := by
  induction ptrs generalizing services with
  | nil => simp
  | cons ptr ptrs ih =>
    have fresh : ptr ∉ ptrs := (List.nodup_cons.mp once).1
    have rest := ih (List.nodup_cons.mp once).2 (ProxySystem.modifyService services ptr f)
    simp only [List.foldl_cons, rest, modifyService_apply]
    by_cases here : q = ptr
    · simp [here, fresh]
    · simp [here]

variable (parse) in
theorem setAllConfigs_services (registered : Registered p) (config : Jni.ProxyConfig) (q : Nat) :
    (p.setAllConfigsOnNetworkThread parse config).services q =
      (p.services q).map fun s => (s.setConfigOnNetworkThread parse config).2 := by
  have loop := foldl_modifyService (fun s => (s.setConfigOnNetworkThread parse config).2)
    p.allConfigs registered.1 p.services q
  have all : q ∉ p.allConfigs → p.services q = none := by
    intro absent
    simpa [registered.2 q] using absent
  simp only [ProxySystem.setAllConfigsOnNetworkThread, loop]
  split
  · rfl
  · next absent => simp [all absent]

theorem set_live {services : HashMap Nat (ProxyConfigService Rules)} {ptr : Nat}
    {s s' : ProxyConfigService Rules} (live : services ptr = some s) (q : Nat) :
    (services.set ptr s' q).isSome = (services q).isSome := by
  by_cases here : q = ptr
  · simp [HashMap.set_apply, here, live]
  · simp [HashMap.set_apply, here]

variable (parse) in
theorem changeConfig_settling (h : Settling parse p) (config : Jni.ProxyConfig) :
    Settling parse (p.changeConfig config) := by
  constructor
  · exact h.registered
  · intro last member
    simp only [inFlight, ProxySystem.changeConfig, ← List.append_assoc,
      List.getLast?_concat] at member
    cases member
    rfl
  · intro empty
    simp [inFlight, ProxySystem.changeConfig] at empty

theorem sendChanged_settling {config : Jni.ProxyConfig} {unsent : List Jni.ProxyConfig}
    (h : Settling parse p) (oldest : p.unsent = config :: unsent) :
    Settling parse ({ p with unsent }.setConfig config) := by
  have same : inFlight (ProxySystem.setConfig { p with unsent } config) = inFlight p := by
    simp [inFlight, ProxySystem.setConfig, oldest]
  constructor
  · exact h.registered
  · exact fun last member => h.newest last (same ▸ member)
  · exact fun empty valid => h.settled (same ▸ empty) valid

theorem runTask_settling {config : Jni.ProxyConfig} {queue : List Jni.ProxyConfig}
    (h : Settling parse p) (first : p.queue = config :: queue) :
    Settling parse ({ p with queue }.setAllConfigsOnNetworkThread parse config) := by
  have registered : Registered { p with queue } := h.registered
  have services := setAllConfigs_services parse registered config
  constructor
  · constructor
    · exact h.registered.1
    · intro q
      have listed : q ∈ p.allConfigs ↔ (p.services q).isSome = true := h.registered.2 q
      simp only [services, Option.isSome_map]
      exact listed
  · intro last member
    apply h.newest
    have rest : (queue ++ p.unsent).getLast? = some last := member
    simp [inFlight, first, List.getLast?_cons, rest]
  · intro empty valid q s here
    have none : queue ++ p.unsent = [] := empty
    have last : config = p.current := by
      apply h.newest
      simp [inFlight, first, none]
    simp only [services, Option.map_eq_some_iff] at here
    obtain ⟨w, _, rfl⟩ := here
    subst last
    exact setConfig_latest w valid

theorem constructService_settling {ptr : Nat} (h : Settling parse p)
    (free : (p.services ptr).isNone = true) : Settling parse (p.constructService parse ptr) := by
  have unlisted : ptr ∉ p.allConfigs := by
    simpa [h.registered.2 ptr] using free
  constructor
  · constructor
    · have apart : ∀ q ∈ p.allConfigs, q ≠ ptr := fun q listed same => unlisted (same ▸ listed)
      simpa [ProxySystem.constructService, List.nodup_append, h.registered.1] using apart
    · intro q
      by_cases here : q = ptr
      · simp [ProxySystem.constructService, HashMap.set_apply, here]
      · simp [ProxySystem.constructService, HashMap.set_apply, here, h.registered.2 q]
  · exact h.newest
  · intro empty valid q s here
    rcases HashMap.set_some here with ⟨_, rfl⟩ | ⟨_, old⟩
    · exact setConfig_latest _ valid
    · exact h.settled empty valid q s old

theorem destroyService_settling (h : Settling parse p) (ptr : Nat) :
    Settling parse (p.destroyService ptr) := by
  constructor
  · constructor
    · exact h.registered.1.erase ptr
    · intro q
      by_cases here : q = ptr
      · simp [ProxySystem.destroyService, HashMap.erase_apply, here, h.registered.1.not_mem_erase]
      · simp [ProxySystem.destroyService, HashMap.erase_apply, here,
          h.registered.1.mem_erase_iff, h.registered.2 q]
  · exact h.newest
  · intro empty valid q s here
    exact h.settled empty valid q s (HashMap.erase_some here).2

theorem observers_settling {ptr : Nat} {s s' : ProxyConfigService Rules} (h : Settling parse p)
    (live : p.services ptr = some s) (same : s'.latest = s.latest) :
    Settling parse { p with services := p.services.set ptr s' } := by
  constructor
  · constructor
    · exact h.registered.1
    · intro q
      simp [set_live live, h.registered.2 q]
  · exact h.newest
  · intro empty valid q w here
    rcases HashMap.set_some here with ⟨_, rfl⟩ | ⟨_, old⟩
    · have before := h.settled empty valid ptr s live
      simpa [ProxyConfigService.getLatestProxyConfig, same] using before
    · exact h.settled empty valid q w old

theorem step_settling {e : Event} (h : Settling parse p) (taken : step parse p e = some p') :
    Settling parse p' := by
  cases e with
  | changeConfig config =>
    cases taken
    exact changeConfig_settling parse h config
  | sendChanged =>
    simp only [step] at taken
    split at taken
    · cases taken
    · next config unsent oldest =>
      cases taken
      exact sendChanged_settling h oldest
  | runTask =>
    simp only [step] at taken
    split at taken
    · cases taken
    · next config queue first =>
      cases taken
      exact runTask_settling h first
  | constructService ptr =>
    simp only [step, Option.ite_none_right_eq_some] at taken
    obtain ⟨free, made⟩ := taken
    cases made
    exact constructService_settling h free
  | destroyService ptr =>
    simp only [step, Option.ite_none_right_eq_some] at taken
    obtain ⟨_, gone⟩ := taken
    cases gone
    exact destroyService_settling h ptr
  | addObserver ptr o =>
    obtain ⟨s, live, added⟩ := Option.map_eq_some_iff.mp taken
    cases added
    apply observers_settling h live
    unfold ProxyConfigService.addObserver
    split <;> rfl
  | removeObserver ptr o =>
    obtain ⟨s, live, removed⟩ := Option.map_eq_some_iff.mp taken
    cases removed
    exact observers_settling h live rfl

theorem initial_settling (current : Jni.ProxyConfig) :
    Settling parse (initial current : ProxySystem Rules) := by
  refine ⟨⟨List.nodup_nil, fun ptr => by simp [initial]⟩, ?_, ?_⟩
  · simp [inFlight, initial]
  · intro _ _ ptr s impossible
    cases impossible

/-- Whenever every change is sent and run and Java's config is valid, the registry is the
live services, each once, and every one of them has Java's config. -/
theorem proxy_config_converges (parse : Str → Rules) {current : Jni.ProxyConfig}
    {es : List Event} {t : ProxySystem Rules}
    (reached : Runs.run (step parse) (initial current) es = some t)
    (idle : t.queue = []) (sent : t.unsent = []) (valid : t.current.state = .valid) :
    Registered t ∧ Converged parse t := by
  have h := Runs.invariant (initial_settling current) (fun p e p' => step_settling) reached
  have none : inFlight t = [] := by simp [inFlight, idle, sent]
  exact ⟨h.registered, h.settled none valid⟩

/-- A service is made between a change and the arrival of the messages before it. -/
def lateService : List Event :=
  [.changeConfig ⟨.valid, "a:1".toList⟩, .constructService 7, .sendChanged,
    .changeConfig ⟨.valid, "b:2".toList⟩, .constructService 8, .destroyService 7, .runTask,
    .sendChanged, .constructService 7, .runTask]

theorem proxy_config_converges_late :
    ∃ t, Runs.run (step id) (initial {}) lateService = some t ∧ t.allConfigs = [8, 7] ∧
      Registered t ∧ Converged id t := by
  have ends : (Runs.run (step id) (initial {}) lateService).map (fun t =>
      (t.allConfigs, t.queue, t.unsent, t.current.state)) = some ([8, 7], [], [], .valid) := by
    decide +kernel
  obtain ⟨t, reached, fields⟩ := Option.map_eq_some_iff.mp ends
  simp only [Prod.mk.injEq] at fields
  obtain ⟨listed, idle, sent, valid⟩ := fields
  exact ⟨t, reached, listed, proxy_config_converges id reached idle sent valid⟩

end Seaturtle.ProxyRuns
