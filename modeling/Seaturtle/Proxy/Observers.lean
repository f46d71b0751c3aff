import Seaturtle.Lib.Runs
import Seaturtle.Proxy.ConfigService

/-! What the observers of one service are told, and what the getter says. -/
namespace Seaturtle.ObserverRuns

/-- A service, and what its last `SetConfigOnNetworkThread` told the observers. -/
structure Watched (Rules : Type) where
  service : ProxyConfigService Rules
  notified : List (Notification Rules)
  deriving DecidableEq

inductive Event where
  | addObserver (observer : Nat)
  | removeObserver (observer : Nat)
  | setConfig (config : Jni.ProxyConfig)
  deriving DecidableEq

variable {Rules : Type} (parse : Str → Rules)

def step (w : Watched Rules) : Event → Option (Watched Rules)
  | .addObserver o => some { w with service := w.service.addObserver o }
  | .removeObserver o => some { w with service := w.service.removeObserver o }
  | .setConfig config =>
    let (notified, service) := w.service.setConfigOnNetworkThread parse config
    some { service, notified }

def initial (response : Jni.ProxyConfig) : Watched Rules :=
  let (notified, service) := ProxyConfigService.construct parse response
  { service, notified }

/-- The notification refers to a config that exists, and the getter agrees with it. -/
def Agrees (s : ProxyConfigService Rules) (n : Notification Rules) : Prop :=
  n.config.isSome = true ∧ n.availability = s.getLatestProxyConfig.1 ∧
    (n.availability = .configValid → n.config = s.getLatestProxyConfig.2)

def ObserversAgree (w : Watched Rules) : Prop := ∀ n ∈ w.notified, Agrees w.service n

/-- A config that is not `VALID` finds no observer. -/
def ValidWhereObserved (w : Watched Rules) : Event → Prop
  | .setConfig config => config.state = .valid ∨ w.service.observers = []
  | _ => True

variable {parse}

theorem setConfig_valid {s : ProxyConfigService Rules} {config : Jni.ProxyConfig}
    (valid : config.state = .valid) :
    ∀ n ∈ (s.setConfigOnNetworkThread parse config).1,
      Agrees (s.setConfigOnNetworkThread parse config).2 n := by
  intro n member
  simp only [ProxyConfigService.setConfigOnNetworkThread, valid, List.mem_map] at member ⊢
  obtain ⟨observer, _, rfl⟩ := member
  exact ⟨rfl, rfl, fun _ => rfl⟩

theorem setConfig_pending {s : ProxyConfigService Rules} {config : Jni.ProxyConfig}
    (pending : config.state = .pending) :
    (s.setConfigOnNetworkThread parse config).1 =
      s.observers.map fun observer => ⟨observer, none, .configPending⟩ := by
  simp [ProxyConfigService.setConfigOnNetworkThread, pending]

theorem setConfig_agrees_iff (s : ProxyConfigService Rules) (config : Jni.ProxyConfig) :
    (∀ n ∈ (s.setConfigOnNetworkThread parse config).1,
        Agrees (s.setConfigOnNetworkThread parse config).2 n) ↔
      config.state = .valid ∨ s.observers = [] := by
  cases state : config.state with
  | valid =>
    exact iff_of_true (setConfig_valid state) (.inl rfl)
  | pending =>
    rw [setConfig_pending state]
    cases observers : s.observers with
    | nil => simp
    | cons observer rest =>
      have null (n : Notification Rules) (none : n.config = none) (w : ProxyConfigService Rules) :
          ¬ Agrees w n := by
        intro agrees
        simp [Agrees, none] at agrees
      constructor
      · intro all
        exact absurd (all _ List.mem_cons_self) (null _ rfl _)
      · rintro (impossible | impossible)
        · cases impossible
        · cases impossible

theorem observers_latest {s : ProxyConfigService Rules} {n : Notification Rules}
    (h : Agrees s n) {s' : ProxyConfigService Rules} (same : s'.latest = s.latest) :
    Agrees s' n := by
  simpa [Agrees, ProxyConfigService.getLatestProxyConfig, same] using h

/-- In every state of a run the observers were told what the getter says exactly when
no config but a `VALID` one is ever set while an observer is attached. -/
theorem observers_agree_iff (parse : Str → Rules) (response : Jni.ProxyConfig) (es : List Event) :
    Runs.Always (step parse) ObserversAgree (initial parse response) es ↔
      Runs.Along (step parse) (fun w e _ => ValidWhereObserved w e)
        (initial parse response) es := by
  apply Runs.always_iff_along ObserversAgree
  · exact (setConfig_agrees_iff {} response).mpr (.inr rfl)
  · intro w e w' h taken meets
    cases e with
    | addObserver o =>
      cases taken
      have same : (w.service.addObserver o).latest = w.service.latest := by
        unfold ProxyConfigService.addObserver
        split <;> rfl
      exact fun n member => observers_latest (h n member) same
    | removeObserver o =>
      cases taken
      exact fun n member => observers_latest (h n member) rfl
    | setConfig config =>
      cases taken
      exact (setConfig_agrees_iff w.service config).mpr meets
  · exact fun w h => h
  · intro w e w' _ taken agree
    cases e with
    | addObserver o => trivial
    | removeObserver o => trivial
    | setConfig config =>
      cases taken
      exact (setConfig_agrees_iff w.service config).mp agree

/-- Java has a valid config, an observer is attached, and the config turns pending. -/
def pendingAfterValid : List Event := [.addObserver 1, .setConfig { state := .pending }]

theorem pending_config_null :
    ∃ w, Runs.run (step id) (initial id ⟨.valid, "proxy:80".toList⟩) pendingAfterValid = some w ∧
      w.notified = [⟨1, none, .configPending⟩] ∧
      w.service.getLatestProxyConfig = (.configValid, some ⟨"proxy:80".toList⟩) ∧
      ¬ ObserversAgree w := by
  refine ⟨_, rfl, rfl, rfl, fun agree => ?_⟩
  have null := (agree _ List.mem_cons_self).1
  cases null

end Seaturtle.ObserverRuns
