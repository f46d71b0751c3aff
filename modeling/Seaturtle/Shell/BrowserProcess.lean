import Seaturtle.Shell.Isolation
import Seaturtle.Shell.NetStores

/-! The browser process with what its stores contain, on disk and in memory, and the
bridge messages that reach into them. -/
namespace Seaturtle

/-- What an earlier process left on disk. -/
structure Disk (net : NetLibrary) (Cookie : Type) where
  cookies : List Cookie := []
  cacheDir : net.cache.File := net.cache.noFile
  hstsFile : net.hsts.File := net.hsts.noFile

/-- The stores that single contexts own, by their numbers. -/
structure OwnStores (net : NetLibrary) (Cookie : Type) where
  cookies : Nat → List Cookie := fun _ => []
  cache : Nat → net.cache.Memory := fun _ => net.cache.made
  hsts : Nat → net.hsts.Memory := fun _ => net.hsts.made

structure BrowserProcess (net : NetLibrary) (Cookie : Type) where
  browser : Browser
  io : IoState
  /-- The persistent part is the database on disk, also where the store has not been made. -/
  cookies : SplitCookieStore Cookie
  /-- The shared cache and the shared transport security state; nothing happens to them
  before they are made. -/
  cache : net.cache.Memory := net.cache.made
  cacheDir : net.cache.File
  hsts : net.hsts.Memory := net.hsts.made
  hstsFile : net.hsts.File
  own : OwnStores net Cookie := {}
  /-- A CHECK has failed in the handling of a bridge message. -/
  aborted : Bool := false

namespace BrowserProcess

inductive Event (net : NetLibrary) where
  | shells (e : ShellRuns.Event)
  /-- A use of the client's getter, with Java's answer if the cookie store has to be made. -/
  | use (client : Client) (answer : UpdateFavoritesResponse)
  | setCookie (client : Client) (now : Time) (url : Gurl) (cookieLine : Str)
      (options : CookieOptions)
  | useCache (client : Client) (use : net.cache.Use)
  | useHsts (client : Client) (use : net.hsts.Use)
  /-- What the shared stores do by themselves. -/
  | cacheActs (use : net.cache.Use)
  | hstsActs (use : net.hsts.Use)
  | clearData (now : Time)
  | updateFavoritesResponse (update : UpdateFavoritesResponse)

variable {net : NetLibrary} {Cookie : Type} (lib : UrlLibrary) (cs : CookieStore Cookie)

/-- A context has its getter until its last owner is gone. -/
def hasGetter (b : Browser) (client : Client) : Bool :=
  TabRuns.created b client &&
    match client with
    | .context c => decide (c ∉ b.destroyed)
    | .fetcher => true

/-- The constructor of a `SplitCookieStore` asks Java for the favorites. -/
def constructCookieStore (s : BrowserProcess net Cookie) (io : IoState)
    (answer : UpdateFavoritesResponse) : Option (SplitCookieStore Cookie) :=
  if s.io.shared.cookieStore.isNone && io.shared.cookieStore.isSome then
    s.cookies.updateFavorites lib answer
  else some s.cookies

def use (s : BrowserProcess net Cookie) (client : Client) (answer : UpdateFavoritesResponse) :
    Option (BrowserProcess net Cookie) := do
  let (_, io) ← s.io.getURLRequestContext s.browser.settings client
  let cookies ← s.constructCookieStore lib io answer
  return { s with io, cookies }

/-- The context that the client has, if it has used its getter. -/
def contextOf (s : BrowserProcess net Cookie) (client : Client) : Option RequestContext :=
  if hasGetter s.browser client then s.io.urlRequestContext client else none

def put {α : Type} (stores : Nat → α) (n : Nat) (content : α) : Nat → α :=
  fun m => if m = n then content else stores m

def setCookie (s : BrowserProcess net Cookie) (store : StoreRef) (now : Time) (url : Gurl)
    (cookieLine : Str) (options : CookieOptions) : BrowserProcess net Cookie :=
  match store with
  | .shared =>
    { s with cookies := (s.cookies.setCookieWithOptions lib cs now url cookieLine options).2 }
  | .own n =>
    let content := (cs.setCookieWithOptions now url cookieLine options (s.own.cookies n)).2
    { s with own := { s.own with cookies := put s.own.cookies n content } }

def useCache (s : BrowserProcess net Cookie) (store : StoreRef) (use : net.cache.Use) :
    BrowserProcess net Cookie :=
  match store with
  | .shared =>
    let (cache, cacheDir) := net.cache.use use (s.cache, s.cacheDir)
    { s with cache, cacheDir }
  | .own n => { s with own.cache := put s.own.cache n (net.cache.useInMemory use (s.own.cache n)) }

def useHsts (s : BrowserProcess net Cookie) (store : StoreRef) (use : net.hsts.Use) :
    BrowserProcess net Cookie :=
  match store with
  | .shared =>
    let (hsts, hstsFile) := net.hsts.use use (s.hsts, s.hstsFile)
    { s with hsts, hstsFile }
  | .own n => { s with own.hsts := put s.own.hsts n (net.hsts.useInMemory use (s.own.hsts n)) }

/-! `ClearData`, store by store, with the deletions that it starts. -/

def clearCookies (s : BrowserProcess net Cookie) (now : Time) : BrowserProcess net Cookie :=
  if s.io.shared.cookieStore.isSome then
    { s with cookies := (s.cookies.deleteAllCreatedBetween cs now timeNull timeMax).2 }
  else s

def clearCache (s : BrowserProcess net Cookie) : BrowserProcess net Cookie :=
  if s.io.shared.httpCache.isSome && net.cache.hasBackend s.cache then
    let (cache, cacheDir) := net.cache.doomAllEntries (s.cache, s.cacheDir)
    { s with cache, cacheDir }
  else s

def clearHsts (s : BrowserProcess net Cookie) : BrowserProcess net Cookie :=
  if s.io.shared.transportSecurityState.isSome then
    let (hsts, hstsFile) := net.hsts.deleteAllDynamicDataSince timeNull (s.hsts, s.hstsFile)
    { s with hsts, hstsFile }
  else s

def clearData (s : BrowserProcess net Cookie) (now : Time) : BrowserProcess net Cookie :=
  ((s.clearCookies cs now).clearCache).clearHsts

def updateFavoritesResponse (s : BrowserProcess net Cookie) (update : UpdateFavoritesResponse) :
    BrowserProcess net Cookie :=
  match s.io.getSplitCookieStore with
  | none => { s with aborted := true }
  | some (_, io) =>
    match s.cookies.updateFavorites lib update with
    | none => { s with aborted := true }
    | some cookies => { s with io, cookies }

def act (s : BrowserProcess net Cookie) : Event net → Option (BrowserProcess net Cookie)
  | .shells e => (ShellRuns.step s.browser e).map fun browser => { s with browser }
  | .use client answer => if hasGetter s.browser client then s.use lib client answer else none
  | .setCookie client now url cookieLine options =>
    (s.contextOf client).map fun context =>
      s.setCookie lib cs context.cookieStore now url cookieLine options
  | .useCache client use =>
    (s.contextOf client).map fun context => s.useCache context.httpCache use
  | .useHsts client use =>
    (s.contextOf client).map fun context => s.useHsts context.transportSecurityState use
  | .cacheActs use =>
    if s.io.shared.httpCache.isSome then some (s.useCache .shared use) else none
  | .hstsActs use =>
    if s.io.shared.transportSecurityState.isSome then some (s.useHsts .shared use) else none
  | .clearData now => some (s.clearData cs now)
  | .updateFavoritesResponse update => some (s.updateFavoritesResponse lib update)

/-- An aborted process does nothing more; one that ends in the constructor of its cookie
store has no next state. -/
def step (s : BrowserProcess net Cookie) (e : Event net) : Option (BrowserProcess net Cookie) :=
  if s.aborted then none else s.act lib cs e

/-- A process after its first `UPDATE_SETTINGS`, over what is on disk. -/
def initial (settings : AllSettings) (dataDir : Str) (disk : Disk net Cookie) :
    BrowserProcess net Cookie where
  browser := ShellRuns.initial settings
  io := { contextPath := append dataDir kBaseDir }
  cookies := ⟨disk.cookies, [], ∅⟩
  cacheDir := disk.cacheDir
  hstsFile := disk.hstsFile

end BrowserProcess

end Seaturtle
