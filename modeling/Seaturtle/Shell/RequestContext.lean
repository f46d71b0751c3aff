import Seaturtle.Ints
import Seaturtle.Shell.Registry

/-! The request contexts: which stores a `ShellURLRequestContextGetter` puts into
its `URLRequestContext`. Stores of its own are numbered in the order they are made. -/
namespace Seaturtle

/-- A store of the `SharedState` singleton, or one that a single context owns. -/
inductive StoreRef where
  | shared
  | own (n : Nat)
  deriving DecidableEq

/-- What `GetURLRequestContext` sets by the settings. The network delegate, the
host resolver and the like are the shared ones in every context. -/
structure RequestContext where
  spdy : Bool
  cookieStore : StoreRef
  transportSecurityState : StoreRef
  httpCache : StoreRef
  sdchManager : StoreRef
  deriving DecidableEq

def RequestContext.stores (context : RequestContext) : List StoreRef :=
  [context.cookieStore, context.transportSecurityState, context.httpCache, context.sdchManager]

/-- Which of the lazily made stores exist, with the directory each was given. -/
structure SharedState where
  cookieStore : Option Str := none
  transportSecurityState : Option Str := none
  httpCache : Option (Str × Int) := none
  sdch : Bool := false
  deriving DecidableEq

/-- Who has a getter: each browser context has one, and the fetcher has one with
an empty base path. -/
inductive Client where
  | context (c : BrowserContext)
  | fetcher
  deriving DecidableEq

structure IoState where
  /-- `path_` of every `ShellBrowserContext`. -/
  contextPath : Str
  shared : SharedState := {}
  /-- `url_request_context_` of each getter, null until its first use. -/
  urlRequestContext : HashMap Client RequestContext := .empty
  nextStore : Nat := 0

def kBaseDir : Str := "seaturtle".toList
def kStateDir : Str := "state".toList
def kCacheDir : Str := "cache".toList
def kHstsDir : Str := "hsts".toList
def kCookieStore : Str := "cookie_store".toList

def append (path component : Str) : Str := path ++ '/' :: component

namespace IoState

def basePath (io : IoState) : Client → Str
  | .context _ => io.contextPath
  | .fetcher => []

/-- `STDCHECK(!path.empty())` where the store has to be made; `none` ends the process. -/
def getCookieStore (io : IoState) (path : Str) : Option (StoreRef × IoState) :=
  match io.shared.cookieStore with
  | some _ => some (.shared, io)
  | none =>
    if path.isEmpty then none
    else
      let dir := append (append path kStateDir) kCookieStore
      some (.shared, { io with shared := { io.shared with cookieStore := some dir } })

def getTransportSecurityState (io : IoState) (path : Str) : Option (StoreRef × IoState) :=
  if path.isEmpty then none
  else match io.shared.transportSecurityState with
    | some _ => some (.shared, io)
    | none =>
      let dir := append (append path kStateDir) kHstsDir
      some (.shared, { io with shared := { io.shared with transportSecurityState := some dir } })

def getHttpCache (io : IoState) (path : Str) (cacheSize : Int) : Option (StoreRef × IoState) :=
  if path.isEmpty then none
  else match io.shared.httpCache with
    | some _ => some (.shared, io)
    | none =>
      let dir := append (append path kStateDir) kCacheDir
      some (.shared, { io with shared := { io.shared with httpCache := some (dir, cacheSize) } })

def getSdch (io : IoState) : StoreRef × IoState :=
  (.shared, { io with shared := { io.shared with sdch := true } })

def createStore (io : IoState) : StoreRef × IoState :=
  (.own io.nextStore, { io with nextStore := io.nextStore + 1 })

/-- The shared stores are for contexts with a path, and only under `single_context`. -/
def mayShare (io : IoState) (settings : AllSettings) (client : Client) : Bool :=
  !(io.basePath client).isEmpty && settings.state.singleContext

def chooseCookieStore (io : IoState) (settings : AllSettings) (client : Client) :
    Option (StoreRef × IoState) :=
  if io.mayShare settings client && settings.state.allowPersistantCookies then
    io.getCookieStore (io.basePath client)
  else some io.createStore

def chooseCaches (io : IoState) (settings : AllSettings) (client : Client) :
    Option ((StoreRef × StoreRef × StoreRef) × IoState) :=
  if io.mayShare settings client && settings.state.persistCache then do
    let (tss, io) ← io.getTransportSecurityState (io.basePath client)
    let diskCacheSize := toInt32 (settings.state.diskCacheSizeMb * 1024 * 1024)
    let (cache, io) ← io.getHttpCache (io.basePath client) diskCacheSize
    let (sdch, io) := io.getSdch
    return ((tss, cache, sdch), io)
  else
    let (tss, io) := io.createStore
    let (cache, io) := io.createStore
    let (sdch, io) := io.createStore
    some ((tss, cache, sdch), io)

/-- The settings are read when the context is made, at the getter's first use. -/
def getURLRequestContext (io : IoState) (settings : AllSettings) (client : Client) :
    Option (RequestContext × IoState) :=
  match io.urlRequestContext client with
  | some context => some (context, io)
  | none => do
    let (cookies, io) ← io.chooseCookieStore settings client
    let ((tss, cache, sdch), io) ← io.chooseCaches settings client
    let context := ⟨settings.network.spdyEnabled, cookies, tss, cache, sdch⟩
    return (context, { io with urlRequestContext := io.urlRequestContext.set client context })

def getSplitCookieStore (io : IoState) : Option (StoreRef × IoState) := io.getCookieStore []

end IoState

end Seaturtle
