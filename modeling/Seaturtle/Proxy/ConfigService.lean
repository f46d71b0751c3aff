import Seaturtle.Url

/-! The proxy configuration services, the registry that a change of the Java side
goes through, and the two queues on its way. `ProxyRules::ParseFromString` is a parameter. -/
namespace Seaturtle

namespace Jni

inductive ProxyConfigState where
  | pending
  | valid
  deriving DecidableEq

structure ProxyConfig where
  state : ProxyConfigState := .pending
  config : Str := []
  deriving DecidableEq

end Jni

inductive ConfigAvailability where
  | configPending
  | configValid
  deriving DecidableEq

structure ProxyConfig (Rules : Type) where
  proxyRules : Rules
  deriving DecidableEq

/-- A call of `OnProxyConfigChanged`. The config is passed by reference; it is `none`
where the reference is made from a null pointer. -/
structure Notification (Rules : Type) where
  observer : Nat
  config : Option (ProxyConfig Rules)
  availability : ConfigAvailability
  deriving DecidableEq

structure ProxyConfigService (Rules : Type) where
  latest : Option (ProxyConfig Rules) := none
  observers : List Nat := []
  deriving DecidableEq

namespace ProxyConfigService
variable {Rules : Type} (parse : Str → Rules)

/-- An `ObserverList` takes an observer once. -/
def addObserver (s : ProxyConfigService Rules) (observer : Nat) : ProxyConfigService Rules :=
  if observer ∈ s.observers then s else { s with observers := s.observers ++ [observer] }

def removeObserver (s : ProxyConfigService Rules) (observer : Nat) : ProxyConfigService Rules :=
  { s with observers := s.observers.erase observer }

def setConfigOnNetworkThread (s : ProxyConfigService Rules) (config : Jni.ProxyConfig) :
    List (Notification Rules) × ProxyConfigService Rules :=
  let (pc, state) : Option (ProxyConfig Rules) × ConfigAvailability :=
    match config.state with
    | .valid => (some ⟨parse config.config⟩, .configValid)
    | .pending => (none, .configPending)
  let s := match pc with
    | some pc => { s with latest := some pc }
    | none => s
  (s.observers.map fun observer => ⟨observer, pc, state⟩, s)

/-- What is returned, and the config where one is written. -/
def getLatestProxyConfig (s : ProxyConfigService Rules) :
    ConfigAvailability × Option (ProxyConfig Rules) :=
  match s.latest with
  | none => (.configPending, none)
  | some pc => (.configValid, some pc)

/-- The constructor sets what Java answers to `PROXY_CONFIG_REQUEST`. -/
def construct (response : Jni.ProxyConfig) : List (Notification Rules) × ProxyConfigService Rules :=
  setConfigOnNetworkThread parse {} response

end ProxyConfigService

/-- Java's config and its changes that are not sent yet, the config tasks of the IO
queue, the live services by their addresses, and `all_configs_`. -/
structure ProxySystem (Rules : Type) where
  current : Jni.ProxyConfig
  unsent : List Jni.ProxyConfig := []
  queue : List Jni.ProxyConfig := []
  services : HashMap Nat (ProxyConfigService Rules) := .empty
  allConfigs : List Nat := []

namespace ProxySystem
variable {Rules : Type} (parse : Str → Rules)

def modifyService (services : HashMap Nat (ProxyConfigService Rules)) (ptr : Nat)
    (f : ProxyConfigService Rules → ProxyConfigService Rules) :
    HashMap Nat (ProxyConfigService Rules) :=
  match services ptr with
  | some s => services.set ptr (f s)
  | none => services

/-- `new ProxyConfigService()` at an address: registered first, then configured by
Java's current config. -/
def constructService (p : ProxySystem Rules) (ptr : Nat) : ProxySystem Rules :=
  { p with
    allConfigs := p.allConfigs ++ [ptr]
    services := p.services.set ptr (ProxyConfigService.construct parse p.current).2 }

def destroyService (p : ProxySystem Rules) (ptr : Nat) : ProxySystem Rules :=
  { p with allConfigs := p.allConfigs.erase ptr, services := p.services.erase ptr }

/-- Java's side of a change: its own config first, the message later. -/
def changeConfig (p : ProxySystem Rules) (config : Jni.ProxyConfig) : ProxySystem Rules :=
  { p with current := config, unsent := p.unsent ++ [config] }

def setConfig (p : ProxySystem Rules) (config : Jni.ProxyConfig) : ProxySystem Rules :=
  { p with queue := p.queue ++ [config] }

def setAllConfigsOnNetworkThread (p : ProxySystem Rules) (config : Jni.ProxyConfig) :
    ProxySystem Rules :=
  { p with services := p.allConfigs.foldl (fun services ptr =>
      modifyService services ptr fun s => (s.setConfigOnNetworkThread parse config).2) p.services }

end ProxySystem

end Seaturtle
