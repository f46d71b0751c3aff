import Seaturtle.Lib.Runs
import Seaturtle.Shell.RequestContext

/-! The services that all request contexts share and that depend on the settings or on Java's
answers: the SSL configuration and the `Accept-Language` header. Each is made at the first
request context and never again. -/
namespace Seaturtle

namespace Settings

inductive SslVersion where
  | ssl3
  | tls1
  | tls11
  | tls12
  deriving DecidableEq

/-- The `SslConfig` message. -/
structure SslConfig where
  revCheckingEnabled : Bool := false
  revCheckingRequiredLocalAnchors : Bool := false
  versionMin : SslVersion := .ssl3
  channelIdEnabled : Bool := true
  falseStartEnabled : Bool := true
  signedCertTimestampsEnabled : Bool := true
  requireForwardSecrecy : Bool := false
  sendClientCert : Bool := false
  verifyEvCert : Bool := false
  versionFallback : Bool := false
  certIoEnabled : Bool := true
  deriving DecidableEq

end Settings

namespace Services

/-- What the services take from net. -/
structure Net where
  defaultSslVersionMin : Nat
  defaultSslVersionMax : Nat
  generateAcceptLanguageHeader : Str → Str

/-- `net::SSLConfig`, as far as it is set. -/
structure SSLConfig where
  revCheckingEnabled : Bool
  revCheckingRequiredLocalAnchors : Bool
  channelIdEnabled : Bool
  falseStartEnabled : Bool
  signedCertTimestampsEnabled : Bool
  requireForwardSecrecy : Bool
  sendClientCert : Bool
  verifyEvCert : Bool
  versionFallback : Bool
  certIoEnabled : Bool
  versionMin : Nat
  versionMax : Nat
  deriving DecidableEq

/-- The values of `net::SSL_PROTOCOL_VERSION_SSL3` and the others. -/
def toContentSslVersion : Settings.SslVersion → Nat
  | .ssl3 => 0x0300
  | .tls1 => 0x0301
  | .tls11 => 0x0302
  | .tls12 => 0x0303

/-- The constructor of an `SSLConfigService`; `GetSSLConfig` gives out what it has made. -/
def sslConfigService (net : Net) (s : Settings.SslConfig) : SSLConfig where
  revCheckingEnabled := s.revCheckingEnabled
  revCheckingRequiredLocalAnchors := s.revCheckingRequiredLocalAnchors
  channelIdEnabled := s.channelIdEnabled
  falseStartEnabled := s.falseStartEnabled
  signedCertTimestampsEnabled := s.signedCertTimestampsEnabled
  requireForwardSecrecy := s.requireForwardSecrecy
  sendClientCert := s.sendClientCert
  verifyEvCert := s.verifyEvCert
  versionFallback := s.versionFallback
  certIoEnabled := s.certIoEnabled
  versionMin := max (toContentSslVersion s.versionMin) net.defaultSslVersionMin
  versionMax := net.defaultSslVersionMax

/-- A `ProcessCache`: empty is not asked for yet, or answered with nothing. -/
structure ProcessCache where
  locale : Str := []
  acceptLangs : Str := []
  deriving DecidableEq

/-- The cached value, or else Java's answer. -/
def cached (value answer : Str) : Str := if value.isEmpty then answer else value

def ProcessCache.getApplicationLocale (cache : ProcessCache) (answer : Str) : Str × ProcessCache :=
  let locale := cached cache.locale answer
  (locale, { cache with locale })

def ProcessCache.getAcceptLangs (cache : ProcessCache) (answer : Str) : Str × ProcessCache :=
  let acceptLangs := cached cache.acceptLangs answer
  (acceptLangs, { cache with acceptLangs })

/-- What a `URLRequestContext` has of the services. -/
structure Context where
  sslConfig : SSLConfig
  acceptLanguage : Str
  deriving DecidableEq

structure State where
  settings : Settings.SslConfig
  cache : ProcessCache := {}
  sslConfigService : Option SSLConfig := none
  uaSettings : Option Str := none
  contexts : HashMap Client Context := .empty

namespace State
variable (net : Net)

def getSSLConfigService (s : State) : SSLConfig × State :=
  match s.sslConfigService with
  | some config => (config, s)
  | none =>
    let config := Services.sslConfigService net s.settings
    (config, { s with sslConfigService := some config })

/-- Java is asked for the languages if the header has to be made and they are not known. -/
def getHttpUserAgentSettings (s : State) (answer : Str) : Str × State :=
  match s.uaSettings with
  | some header => (header, s)
  | none =>
    let (langs, cache) := s.cache.getAcceptLangs answer
    let header := net.generateAcceptLanguageHeader langs
    (header, { s with cache, uaSettings := some header })

def getURLRequestContext (s : State) (client : Client) (answer : Str) : State :=
  match s.contexts client with
  | some _ => s
  | none =>
    let (sslConfig, s) := s.getSSLConfigService net
    let (acceptLanguage, s) := s.getHttpUserAgentSettings net answer
    { s with contexts := s.contexts.set client ⟨sslConfig, acceptLanguage⟩ }

end State

inductive Event where
  | updateSettings (settings : Settings.SslConfig)
  | getURLRequestContext (client : Client) (answer : Str)
  | getApplicationLocale (answer : Str)
  | getAcceptLangs (answer : Str)

def step (net : Net) (s : State) : Event → Option State
  | .updateSettings settings => some { s with settings }
  | .getURLRequestContext client answer => some (s.getURLRequestContext net client answer)
  | .getApplicationLocale answer =>
    some { s with cache := (s.cache.getApplicationLocale answer).2 }
  | .getAcceptLangs answer => some { s with cache := (s.cache.getAcceptLangs answer).2 }

def initial (settings : Settings.SslConfig) : State := { settings }

/-! Before the first context. -/

def Event.settings (before : Settings.SslConfig) : Event → Settings.SslConfig
  | .updateSettings settings => settings
  | _ => before

def lastSettings (first : Settings.SslConfig) (past : List Event) : Settings.SslConfig :=
  past.foldl Event.settings first

def Event.langs? : Event → Option Str
  | .getAcceptLangs answer => some answer
  | _ => none

/-- The first of the answers that has something in it. -/
def firstAnswer (answers : List Str) : Str := (answers.find? (!·.isEmpty)).getD []

theorem cached_firstAnswer (answers : List Str) (answer : Str) :
    cached (firstAnswer answers) answer = firstAnswer (answers ++ [answer]) := by
  unfold firstAnswer
  rw [List.find?_append]
  cases found : answers.find? (!·.isEmpty) with
  | none =>
    cases answer with
    | nil => rfl
    | cons c cs => rfl
  | some value =>
    have nonempty := List.find?_some found
    simp only [Bool.not_eq_true'] at nonempty
    simp [cached, nonempty]

def Event.Uses : Event → Prop
  | .getURLRequestContext _ _ => True
  | _ => False

/-- Nothing has been made, and the settings and the languages are the latest. -/
structure Unmade (first : Settings.SslConfig) (past : List Event) (s : State) : Prop where
  settings : s.settings = lastSettings first past
  langs : s.cache.acceptLangs = firstAnswer (past.filterMap Event.langs?)
  sslConfigService : s.sslConfigService = none
  uaSettings : s.uaSettings = none
  contexts : s.contexts = .empty

variable {net : Net} {first : Settings.SslConfig} {past : List Event} {s s' t : State}

theorem step_unmade {e : Event} (h : Unmade first past s) (unused : ¬ e.Uses)
    (hs : step net s e = some s') : Unmade first (past ++ [e]) s' := by
  have settings : lastSettings first (past ++ [e]) = e.settings (lastSettings first past) :=
    List.foldl_concat ..
  have langs : (past ++ [e]).filterMap Event.langs? =
      past.filterMap Event.langs? ++ e.langs?.toList := by
    rw [List.filterMap_append]
    cases e <;> rfl
  cases e with
  | updateSettings settings' =>
    cases hs
    refine ⟨settings.symm, ?_, h.sslConfigService, h.uaSettings, h.contexts⟩
    rw [langs, h.langs]
    exact congrArg firstAnswer (List.append_nil _).symm
  | getURLRequestContext client answer => exact absurd trivial unused
  | getApplicationLocale answer =>
    cases hs
    refine ⟨h.settings.trans settings.symm, ?_, h.sslConfigService, h.uaSettings, h.contexts⟩
    rw [langs]
    exact h.langs.trans (congrArg firstAnswer (List.append_nil _).symm)
  | getAcceptLangs answer =>
    cases hs
    refine ⟨h.settings.trans settings.symm, ?_, h.sslConfigService, h.uaSettings, h.contexts⟩
    rw [langs]
    change cached s.cache.acceptLangs answer = _
    rw [h.langs, cached_firstAnswer]
    rfl

theorem run_unmade (unused : ∀ e ∈ past, ¬ e.Uses)
    (reached : Runs.run (step net) (initial first) past = some t) : Unmade first past t := by
  have start : (∀ e ∈ [], ¬ Event.Uses e) → Unmade first [] (initial first) :=
    fun _ => ⟨rfl, rfl, rfl, rfl, rfl⟩
  have keep : ∀ past s e s', ((∀ e ∈ past, ¬ Event.Uses e) → Unmade first past s) →
      step net s e = some s' → (∀ e' ∈ past ++ [e], ¬ e'.Uses) → Unmade first (past ++ [e]) s' := by
    intro past s e s' h hs none
    refine step_unmade (h fun e member => none e (List.mem_append_left _ member)) ?_ hs
    exact none e (List.mem_append_right _ List.mem_cons_self)
  have last := Runs.invariant_history
    (I := fun past s => (∀ e ∈ past, ¬ Event.Uses e) → Unmade first past s) [] start keep reached
  exact last unused

/-! After it. -/

structure Made (context : Context) (s : State) : Prop where
  sslConfigService : s.sslConfigService = some context.sslConfig
  uaSettings : s.uaSettings = some context.acceptLanguage
  contexts : ∀ client made, s.contexts client = some made → made = context

theorem set_contexts {contexts : HashMap Client Context} {client other : Client}
    {context made : Context} (before : ∀ made, contexts other = some made → made = context)
    (found : contexts.set client context other = some made) : made = context := by
  rw [HashMap.set_apply] at found
  split at found
  · exact (Option.some.inj found).symm
  · exact before made found

theorem step_made {context : Context} {e : Event} (h : Made context s)
    (hs : step net s e = some s') : Made context s' := by
  cases e with
  | updateSettings settings =>
    cases hs
    exact ⟨h.sslConfigService, h.uaSettings, h.contexts⟩
  | getApplicationLocale answer =>
    cases hs
    exact ⟨h.sslConfigService, h.uaSettings, h.contexts⟩
  | getAcceptLangs answer =>
    cases hs
    exact ⟨h.sslConfigService, h.uaSettings, h.contexts⟩
  | getURLRequestContext client answer =>
    cases hs
    unfold State.getURLRequestContext
    split
    · exact h
    · simp only [State.getSSLConfigService, h.sslConfigService, State.getHttpUserAgentSettings,
        h.uaSettings]
      exact ⟨rfl, rfl, fun other made found => set_contexts (h.contexts other) found⟩

theorem first_made {client : Client} {answer : Str} (h : Unmade first past s)
    (hs : step net s (.getURLRequestContext client answer) = some s') :
    Made ⟨sslConfigService net (lastSettings first past), net.generateAcceptLanguageHeader
      (firstAnswer (past.filterMap Event.langs? ++ [answer]))⟩ s' := by
  have new : s.contexts client = none := by rw [h.contexts]; rfl
  cases hs
  simp only [State.getURLRequestContext, new, State.getSSLConfigService, h.sslConfigService,
    State.getHttpUserAgentSettings, h.uaSettings, ProcessCache.getAcceptLangs, h.settings, h.langs,
    cached_firstAnswer]
  refine ⟨rfl, rfl, fun other made found => set_contexts ?_ found⟩
  intro made impossible
  rw [h.contexts] at impossible
  cases impossible

def beforeUse : List Event :=
  [.updateSettings { versionMin := .tls11 }, .getAcceptLangs [], .getApplicationLocale "de".toList]

def afterUse : List Event :=
  [.updateSettings {}, .getAcceptLangs "fr".toList,
    .getURLRequestContext (.context .global) "fr".toList]

def net38 : Net where
  defaultSslVersionMin := 0x0300
  defaultSslVersionMax := 0x0303
  generateAcceptLanguageHeader langs := langs

end Services

end Seaturtle
