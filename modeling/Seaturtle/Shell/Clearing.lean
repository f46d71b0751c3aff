import Seaturtle.Cookies.Deletion
import Seaturtle.Shell.Favorites

/-! What `ClearData` reaches of the data on disk and in the contexts. -/
namespace Seaturtle.BrowserProcess
open DeletionRuns (Deletes)

variable {net : NetLibrary} {Cookie Instance : Type} {lib : UrlLibrary} {cs : CookieStore Cookie}
  {identity : Cookie → Instance} {matched : Deletion → Instance → Bool}
  {s s' : BrowserProcess net Cookie}

def cookiesIn (s : BrowserProcess net Cookie) : StoreRef → List Cookie
  | .shared => s.cookies.persistant ++ s.cookies.transient
  | .own n => s.own.cookies n

def cacheIn (s : BrowserProcess net Cookie) : StoreRef → List Str
  | .shared => net.cache.entries s.cache ++ net.cache.entriesOnDisk s.cacheDir
  | .own n => net.cache.entries (s.own.cache n)

def hstsIn (s : BrowserProcess net Cookie) : StoreRef → List Str
  | .shared => net.hsts.entries s.hsts
  | .own n => net.hsts.entries (s.own.hsts n)

/-- No data is left on disk, nor in a store of a context that exists. -/
structure Cleared (s : BrowserProcess net Cookie) : Prop where
  disk : s.cookies.persistant = [] ∧ net.cache.entriesOnDisk s.cacheDir = [] ∧
    net.hsts.entriesOnDisk s.hstsFile = []
  contexts : ∀ client context, s.contextOf client = some context →
    s.cookiesIn context.cookieStore = [] ∧ s.cacheIn context.httpCache = [] ∧
      s.hstsIn context.transportSecurityState = []

/-- What is on disk is in a shared store that is made and open, or has been read, and the
stores that a context owns alone are empty. -/
structure InReach (s : BrowserProcess net Cookie) : Prop where
  cookies : s.io.shared.cookieStore.isSome = true ∨ s.cookies.persistant = []
  cache : (s.io.shared.httpCache.isSome = true ∧ net.cache.hasBackend s.cache = true) ∨
    net.cache.entriesOnDisk s.cacheDir = []
  hsts : net.hsts.entries s.hsts ≠ [] ∨ net.hsts.entriesOnDisk s.hstsFile = []
  own : ∀ client context, s.contextOf client = some context → ∀ n,
    (context.cookieStore = .own n → s.own.cookies n = []) ∧
    (context.httpCache = .own n → net.cache.entries (s.own.cache n) = []) ∧
    (context.transportSecurityState = .own n → net.hsts.entries (s.own.hsts n) = [])

/-- A context refers to a shared store only once it is made, and until then that store has
nothing in memory. -/
structure Made (s : BrowserProcess net Cookie) : Prop where
  cookies : ∀ client context, s.io.urlRequestContext client = some context →
    context.cookieStore = .shared → s.io.shared.cookieStore.isSome = true
  caches : ∀ client context, s.io.urlRequestContext client = some context →
    context.httpCache = .shared → s.io.shared.httpCache.isSome = true
  hsts : ∀ client context, s.io.urlRequestContext client = some context →
    context.transportSecurityState = .shared → s.io.shared.transportSecurityState.isSome = true
  transient : s.io.shared.cookieStore.isSome = true ∨ s.cookies.transient = []
  cached : s.io.shared.httpCache.isSome = true ∨ s.cache = net.cache.made
  dynamic : s.io.shared.transportSecurityState.isSome = true ∨ s.hsts = net.hsts.made

theorem contextOf_used {client : Client} {context : RequestContext}
    (has : s.contextOf client = some context) : s.io.urlRequestContext client = some context := by
  unfold contextOf at has
  split at has
  · exact has
  · cases has

theorem made_same (h : Made s) (io : s'.io = s.io)
    (transient : s.io.shared.cookieStore.isSome = true ∨ s'.cookies.transient = [])
    (cached : s.io.shared.httpCache.isSome = true ∨ s'.cache = net.cache.made)
    (dynamic : s.io.shared.transportSecurityState.isSome = true ∨ s'.hsts = net.hsts.made) :
    Made s' := by
  constructor
  · rw [io]
    exact h.cookies
  · rw [io]
    exact h.caches
  · rw [io]
    exact h.hsts
  · rw [io]
    exact transient
  · rw [io]
    exact cached
  · rw [io]
    exact dynamic

theorem use_made {client : Client} {answer : UpdateFavoritesResponse} (h : Made s)
    (taken : s.use lib client answer = some s') : Made s' := by
  rcases use_cases taken with ⟨_, _, rfl⟩ | ⟨context, io, cookies, _, firstUse, _, transient, rfl⟩
  · exact h
  obtain ⟨io₁, chosen, rfl⟩ := firstUse.chosen
  constructor
  · intro other context' used shared
    simp only [HashMap.set_apply, chosen.getters] at used
    rw [chosen.cookieStore, Bool.or_eq_true]
    split at used
    · cases used
      exact .inr (firstUse.cookieStore.mp shared)
    · exact .inl (h.cookies other context' used shared)
  · intro other context' used shared
    simp only [HashMap.set_apply, chosen.getters] at used
    rw [chosen.httpCache, Bool.or_eq_true]
    split at used
    · cases used
      exact .inr (firstUse.httpCache.mp shared)
    · exact .inl (h.caches other context' used shared)
  · intro other context' used shared
    simp only [HashMap.set_apply, chosen.getters] at used
    rw [chosen.transportSecurityState, Bool.or_eq_true]
    split at used
    · cases used
      exact .inr (firstUse.transportSecurityState.mp shared)
    · exact .inl (h.hsts other context' used shared)
  · rw [chosen.cookieStore, Bool.or_eq_true, transient]
    exact h.transient.imp_left .inl
  · rw [chosen.httpCache, Bool.or_eq_true]
    exact h.cached.imp_left .inl
  · rw [chosen.transportSecurityState, Bool.or_eq_true]
    exact h.dynamic.imp_left .inl

theorem setCookie_made {client : Client} {context : RequestContext} (h : Made s)
    (has : s.contextOf client = some context) (now : Time) (url : Gurl) (line : Str)
    (options : CookieOptions) :
    Made (s.setCookie lib cs context.cookieStore now url line options) := by
  cases store : context.cookieStore with
  | shared =>
    have isMade := h.cookies client context (contextOf_used has) store
    exact made_same h rfl (.inl isMade) h.cached h.dynamic
  | own n => exact made_same h rfl h.transient h.cached h.dynamic

theorem useCache_made {store : StoreRef} (h : Made s)
    (isMade : store = .shared → s.io.shared.httpCache.isSome = true) (use : net.cache.Use) :
    Made (s.useCache store use) := by
  cases store with
  | shared => exact made_same h rfl h.transient (.inl (isMade rfl)) h.dynamic
  | own n => exact made_same h rfl h.transient h.cached h.dynamic

theorem useHsts_made {store : StoreRef} (h : Made s)
    (isMade : store = .shared → s.io.shared.transportSecurityState.isSome = true)
    (use : net.hsts.Use) : Made (s.useHsts store use) := by
  cases store with
  | shared => exact made_same h rfl h.transient h.cached (.inl (isMade rfl))
  | own n => exact made_same h rfl h.transient h.cached h.dynamic

theorem updateFavoritesResponse_made (h : Made s) (update : UpdateFavoritesResponse) :
    Made (s.updateFavoritesResponse lib update) := by
  cases isMade : s.io.shared.cookieStore with
  | none =>
    rw [updateFavorites_aborts update isMade]
    exact made_same h rfl h.transient h.cached h.dynamic
  | some dir =>
    rw [updateFavorites_finds update (by simp [isMade])]
    split
    · exact made_same h rfl h.transient h.cached h.dynamic
    · exact made_same h rfl h.transient h.cached h.dynamic

/-! `ClearData`, store by store. -/

theorem clearCookies_sweeps (deletes : Deletes cs identity matched)
    (dated : ∀ x, matched (.createdBetween timeNull timeMax) x = true) (h : Made s) (now : Time) :
    ∃ cookies, s.clearCookies cs now = { s with cookies } ∧ cookies.transient = [] ∧
      (cookies.persistant = [] ↔
        s.io.shared.cookieStore.isSome = true ∨ s.cookies.persistant = []) := by
  have emptied (cookies : List Cookie) :
      (cs.deleteAllCreatedBetween now timeNull timeMax cookies).2 = [] := by
    have left := deletes.left now (.createdBetween timeNull timeMax) cookies
    simpa [DeletionRuns.deleteOn, dated] using left
  unfold clearCookies
  split
  · next isMade =>
    refine ⟨_, rfl, ?_, iff_of_true ?_ (.inl isMade)⟩
    · exact emptied s.cookies.transient
    · exact emptied s.cookies.persistant
  · next unmade => exact ⟨s.cookies, rfl, h.transient.resolve_left unmade, by simp [unmade]⟩

theorem clearCache_sweeps (clears : Clears net)
    (cached : s.io.shared.httpCache.isSome = true ∨ s.cache = net.cache.made) :
    ∃ cache cacheDir, s.clearCache = { s with cache, cacheDir } ∧ net.cache.entries cache = [] ∧
      (net.cache.entriesOnDisk cacheDir = [] ↔
        (s.io.shared.httpCache.isSome = true ∧ net.cache.hasBackend s.cache = true) ∨
          net.cache.entriesOnDisk s.cacheDir = []) := by
  unfold clearCache
  rw [← Bool.and_eq_true]
  split
  · next isOpen =>
    obtain ⟨memory, disk⟩ := clears.doomed s.cache s.cacheDir (Bool.and_eq_true_iff.mp isOpen).2
    exact ⟨_, _, rfl, memory, iff_of_true disk (.inl isOpen)⟩
  · next shut =>
    refine ⟨s.cache, s.cacheDir, rfl, ?_, by simp [shut]⟩
    cases backend : net.cache.hasBackend s.cache with
    | false => exact clears.unopened s.cache backend
    | true =>
      have unmade : ¬ s.io.shared.httpCache.isSome = true := by simpa [backend] using shut
      rw [cached.resolve_left unmade, clears.newCache]

theorem clearHsts_sweeps (clears : Clears net)
    (dynamic : s.io.shared.transportSecurityState.isSome = true ∨ s.hsts = net.hsts.made) :
    ∃ hsts hstsFile, s.clearHsts = { s with hsts, hstsFile } ∧ net.hsts.entries hsts = [] ∧
      (net.hsts.entriesOnDisk hstsFile = [] ↔
        net.hsts.entries s.hsts ≠ [] ∨ net.hsts.entriesOnDisk s.hstsFile = []) := by
  unfold clearHsts
  split
  · refine ⟨_, _, rfl, clears.deleted s.hsts s.hstsFile, ?_⟩
    by_cases empty : net.hsts.entries s.hsts = []
    · rw [clears.untold s.hsts s.hstsFile empty]
      simp [empty]
    · exact iff_of_true (clears.told s.hsts s.hstsFile empty) (.inl empty)
  · next unmade =>
    have empty : net.hsts.entries s.hsts = [] := by
      rw [dynamic.resolve_left unmade, clears.newHsts]
    exact ⟨s.hsts, s.hstsFile, rfl, empty, by simp [empty]⟩

theorem clearCookies_made (h : Made s) (now : Time) : Made (s.clearCookies cs now) := by
  unfold clearCookies
  split
  · next isMade => exact made_same h rfl (.inl isMade) h.cached h.dynamic
  · exact h

theorem clearCache_made (h : Made s) : Made s.clearCache := by
  unfold clearCache
  split
  · next isOpen =>
    exact made_same h rfl h.transient (.inl (Bool.and_eq_true_iff.mp isOpen).1) h.dynamic
  · exact h

theorem clearHsts_made (h : Made s) : Made s.clearHsts := by
  unfold clearHsts
  split
  · next isMade => exact made_same h rfl h.transient h.cached (.inl isMade)
  · exact h

theorem act_made {e : Event net} (h : Made s) (taken : s.act lib cs e = some s') : Made s' := by
  cases e with
  | shells e =>
    obtain ⟨b, _, rfl⟩ := Option.map_eq_some_iff.mp taken
    exact made_same h rfl h.transient h.cached h.dynamic
  | use client answer =>
    simp only [act, Option.ite_none_right_eq_some] at taken
    exact use_made h taken.2
  | setCookie client now url line options =>
    obtain ⟨context, has, rfl⟩ := Option.map_eq_some_iff.mp taken
    exact setCookie_made h has now url line options
  | useCache client use =>
    obtain ⟨context, has, rfl⟩ := Option.map_eq_some_iff.mp taken
    exact useCache_made h (h.caches client context (contextOf_used has)) use
  | useHsts client use =>
    obtain ⟨context, has, rfl⟩ := Option.map_eq_some_iff.mp taken
    exact useHsts_made h (h.hsts client context (contextOf_used has)) use
  | cacheActs use =>
    simp only [act, Option.ite_none_right_eq_some, Option.some.injEq] at taken
    obtain ⟨isMade, rfl⟩ := taken
    exact useCache_made h (fun _ => isMade) use
  | hstsActs use =>
    simp only [act, Option.ite_none_right_eq_some, Option.some.injEq] at taken
    obtain ⟨isMade, rfl⟩ := taken
    exact useHsts_made h (fun _ => isMade) use
  | clearData now =>
    cases taken
    exact clearHsts_made (clearCache_made (clearCookies_made h now))
  | updateFavoritesResponse update =>
    cases taken
    exact updateFavoritesResponse_made h update

/-- What `ClearData` leaves. -/
structure Sweeps (s t : BrowserProcess net Cookie) : Prop where
  persistant : t.cookies.persistant = [] ↔
    s.io.shared.cookieStore.isSome = true ∨ s.cookies.persistant = []
  transient : t.cookies.transient = []
  cacheDir : net.cache.entriesOnDisk t.cacheDir = [] ↔
    (s.io.shared.httpCache.isSome = true ∧ net.cache.hasBackend s.cache = true) ∨
      net.cache.entriesOnDisk s.cacheDir = []
  cache : net.cache.entries t.cache = []
  hstsFile : net.hsts.entriesOnDisk t.hstsFile = [] ↔
    net.hsts.entries s.hsts ≠ [] ∨ net.hsts.entriesOnDisk s.hstsFile = []
  hsts : net.hsts.entries t.hsts = []
  own : t.own = s.own

theorem clearData_sweeps (deletes : Deletes cs identity matched)
    (dated : ∀ x, matched (.createdBetween timeNull timeMax) x = true) (clears : Clears net)
    (h : Made s) (now : Time) : Sweeps s (s.clearData cs now) := by
  obtain ⟨cookies, first, transient, persistant⟩ := clearCookies_sweeps deletes dated h now
  have cached : ({ s with cookies } : BrowserProcess net Cookie).io.shared.httpCache.isSome = true ∨
      s.cache = net.cache.made := h.cached
  obtain ⟨cache, cacheDir, second, entries, onDisk⟩ := clearCache_sweeps clears cached
  have dynamic : ({ s with cookies, cache, cacheDir } :
      BrowserProcess net Cookie).io.shared.transportSecurityState.isSome = true ∨
      s.hsts = net.hsts.made := h.dynamic
  obtain ⟨hsts, hstsFile, third, hosts, inFile⟩ := clearHsts_sweeps clears dynamic
  rw [clearData, first, second, third]
  exact ⟨persistant, transient, onDisk, entries, inFile, hosts, rfl⟩

theorem cleared_iff (deletes : Deletes cs identity matched)
    (dated : ∀ x, matched (.createdBetween timeNull timeMax) x = true) (clears : Clears net)
    (h : Made s) (now : Time) : Cleared (s.clearData cs now) ↔ InReach s := by
  have sweeps := clearData_sweeps deletes dated clears h now
  have untouched := clearData_untouched cs s now
  have contexts (client : Client) : (s.clearData cs now).contextOf client = s.contextOf client := by
    simp only [contextOf, untouched.io, untouched.browser]
  constructor
  · intro cleared
    refine ⟨sweeps.persistant.mp cleared.disk.1, sweeps.cacheDir.mp cleared.disk.2.1,
      sweeps.hstsFile.mp cleared.disk.2.2, fun client context has n => ?_⟩
    have empty := cleared.contexts client context ((contexts client).trans has)
    refine ⟨fun own => ?_, fun own => ?_, fun own => ?_⟩
    · simpa [cookiesIn, own, sweeps.own] using empty.1
    · simpa [cacheIn, own, sweeps.own] using empty.2.1
    · simpa [hstsIn, own, sweeps.own] using empty.2.2
  · intro reach
    have persistant := sweeps.persistant.mpr reach.cookies
    have cacheDir := sweeps.cacheDir.mpr reach.cache
    refine ⟨⟨persistant, cacheDir, sweeps.hstsFile.mpr reach.hsts⟩, fun client context has => ?_⟩
    have own := reach.own client context ((contexts client).symm.trans has)
    refine ⟨?_, ?_, ?_⟩
    · cases store : context.cookieStore with
      | shared => simp [cookiesIn, persistant, sweeps.transient]
      | own n => simpa [cookiesIn, sweeps.own] using (own n).1 store
    · cases store : context.httpCache with
      | shared => simp [cacheIn, cacheDir, sweeps.cache]
      | own n => simpa [cacheIn, sweeps.own] using (own n).2.1 store
    · cases store : context.transportSecurityState with
      | shared => exact sweeps.hsts
      | own n => simpa [hstsIn, sweeps.own] using (own n).2.2 store

/-- At every point of a run, clearing data leaves none exactly when all that is on disk is
in shared stores that are made and open, or have been read, and no context has data in stores
of its own. -/
theorem clear_data_clears_iff (deletes : Deletes cs identity matched)
    (dated : ∀ x, matched (.createdBetween timeNull timeMax) x = true) (clears : Clears net)
    {settings : AllSettings} {dataDir : Str} {disk : Disk net Cookie} {es : List (Event net)}
    (reached : Runs.run (step lib cs) (initial settings dataDir disk) es = some s) (now : Time) :
    Cleared (s.clearData cs now) ↔ InReach s := by
  have start : Made (initial settings dataDir disk) :=
    ⟨nofun, nofun, nofun, .inr rfl, .inr rfl, .inr rfl⟩
  have h := Runs.invariant start (fun _ _ _ h taken => act_made h (step_alive taken).2) reached
  exact cleared_iff deletes dated clears h now

/-! A store of cookies that `base::Time` can date. -/

open CookieRuns (PlainCookie cookieLine plainStore plainUrls exampleUrl)

def DatedCookie : Type := { c : PlainCookie // c.createdBetween timeNull timeMax = true }

def deleteDatedIf (p : PlainCookie → Bool) (cookies : List DatedCookie) : Nat × List DatedCookie :=
  (cookies.countP (p ·.1), cookies.filter (!p ·.1))

def datedStore : CookieStore DatedCookie where
  setCookieWithOptions now url line _ cookies :=
    let name := line.takeWhile (· != '=')
    let value := (line.dropWhile (· != '=')).drop 1
    let cookie : PlainCookie := ⟨url.host, name, value, now⟩
    if dated : cookie.createdBetween timeNull timeMax = true then
      (true, cookies.filter (!·.1.named url name) ++ [⟨cookie, dated⟩])
    else (false, cookies)
  getCookiesWithOptions _ url _ cookies :=
    (cookieLine ((cookies.filter (·.1.host = url.host)).map Subtype.val), cookies)
  getAllCookiesForURL _ url cookies := (cookies.filter (·.1.host = url.host), cookies)
  deleteCookie _ url name cookies := ((), cookies.filter (!·.1.named url name))
  deleteAllCreatedBetween _ b e := deleteDatedIf (·.createdBetween b e)
  deleteAllCreatedBetweenForHost _ b e url :=
    deleteDatedIf fun c => c.host == url.host && c.createdBetween b e
  deleteSessionCookies _ := deleteDatedIf fun _ => true

theorem datedStore_deletes :
    Deletes datedStore id fun d c => DeletionRuns.plainMatched d c.1 := by
  constructor
  · intro now d cookies
    cases d
    all_goals rfl
  · intro now d cookies
    cases d
    all_goals exact DeletionRuns.countP_eq_removed _ cookies

def leftover : Disk plainNet DatedCookie :=
  { cookies := [⟨⟨"a.com".toList, ['c'], ['1'], 1⟩, by decide⟩] }

def leftoverOfEach : Disk plainNet DatedCookie :=
  { leftover with cacheDir := ["http://a.com/".toList], hstsFile := ["a.com".toList] }

/-- The browser opens all that an earlier process left. -/
def allOpened : List (Event plainNet) :=
  [.shells (.launchShell 0), .use (.context .global) ⟨[]⟩, .cacheActs .openBackend,
    .hstsActs .load, .setCookie (.context .global) 2 exampleUrl "d=2".toList {},
    .useCache (.context .global) (.write "http://b.com/".toList)]

theorem clear_data_clears_iff_opened :
    ∃ t, Runs.run (step plainUrls datedStore) (initial {} "data".toList leftoverOfEach) allOpened =
      some t ∧ t.cookies.persistant ++ t.cookies.transient ≠ [] ∧
      Cleared (t.clearData datedStore 9) := by
  have dated (c : DatedCookie) : DeletionRuns.plainMatched (.createdBetween timeNull timeMax) c.1 =
      true := c.2
  refine ⟨_, rfl, by decide, ?_⟩
  have reached : Runs.run (step plainUrls datedStore) (initial {} "data".toList leftoverOfEach)
      allOpened = some _ := rfl
  apply (clear_data_clears_iff datedStore_deletes dated plainNet_clears reached 9).mpr
  refine ⟨.inl rfl, .inl ⟨rfl, rfl⟩, .inl nofun, fun client context has n => ?_⟩
  have used := contextOf_used has
  by_cases this : client = .context .global
  · subst this
    cases used
    exact ⟨nofun, nofun, nofun⟩
  · exact absurd (used.symm.trans (if_neg this)) nofun

/-- Persistent cookies are off, and an earlier process has left some. -/
def persistenceOff : AllSettings := { state := { allowPersistantCookies := false } }

theorem leftover_cookie_survives :
    ∃ t, Runs.run (step plainUrls datedStore) (initial persistenceOff "data".toList leftover)
        [.shells (.launchShell 0), .use (.context .global) ⟨[]⟩] = some t ∧
      (t.clearData datedStore 9).cookies.persistant = leftover.cookies ∧
      ¬ Cleared (t.clearData datedStore 9) := by
  refine ⟨_, rfl, rfl, fun cleared => ?_⟩
  have none := cleared.disk.1
  cases none

end Seaturtle.BrowserProcess
