import Seaturtle.Cookies.OneStore
import Seaturtle.Shell.BrowserProcess
import Seaturtle.Shell.FirstUse

/-! Favorites messages: which of them find the cookie store, and what it routes by. -/
namespace Seaturtle.BrowserProcess
open CookieRuns (plainStore plainUrls)
open SplitCookieStore (favoritesOf ValidUrls)

variable {net : NetLibrary}

/-! What the events so far have done. -/

def lastSettings (first : AllSettings) (past : List (Event net)) : AllSettings :=
  past.foldl (fun settings e => match e with
    | .shells (.updateGlobalSettings newSettings) => newSettings
    | _ => settings) first

def lastFavorites (past : List (Event net)) : Option UpdateFavoritesResponse :=
  past.foldl (fun last e => match e with
    | .updateFavoritesResponse update => some update
    | _ => last) none

def Used (past : List (Event net)) (client : Client) : Prop := ∃ answer, .use client answer ∈ past

/-- With these events behind it, the event is the first use of a browser context, and both
settings are on. -/
def MakesCookieStore (first : AllSettings) (past : List (Event net)) : Event net → Prop
  | .use (.context c) _ => ¬ Used past (.context c) ∧
      (lastSettings first past).state.singleContext = true ∧
      (lastSettings first past).state.allowPersistantCookies = true
  | _ => False

def CookieStoreMade (first : AllSettings) : List (Event net) → Prop :=
  Runs.Happened (MakesCookieStore first)

/-- The event is no favorites message, or one that the cookie store has been made for. -/
def FindsCookieStore (first : AllSettings) (past : List (Event net)) : Event net → Prop
  | .updateFavoritesResponse _ => CookieStoreMade first past
  | _ => True

def FavoritesAfterStore (first : AllSettings) : List (Event net) → Prop :=
  Runs.Throughout (FindsCookieStore first)

def ValidFavorites (lib : UrlLibrary) (past : List (Event net)) : Prop :=
  ∀ update, .updateFavoritesResponse update ∈ past → ValidUrls lib update

theorem lastSettings_concat (first : AllSettings) (past : List (Event net)) (e : Event net) :
    lastSettings first (past ++ [e]) = match e with
      | .shells (.updateGlobalSettings newSettings) => newSettings
      | _ => lastSettings first past := by
  rw [lastSettings, List.foldl_concat]
  rfl

theorem lastFavorites_concat (past : List (Event net)) (e : Event net) :
    lastFavorites (past ++ [e]) = match e with
      | .updateFavoritesResponse update => some update
      | _ => lastFavorites past := by
  rw [lastFavorites, List.foldl_concat]
  rfl

theorem used_concat (past : List (Event net)) (e : Event net) (client : Client) :
    Used (past ++ [e]) client ↔ Used past client ∨ ∃ answer, e = .use client answer := by
  simp only [Used, List.mem_append, List.mem_singleton]
  constructor
  · rintro ⟨answer, before | this⟩
    · exact .inl ⟨answer, before⟩
    · exact .inr ⟨answer, this.symm⟩
  · rintro (⟨answer, before⟩ | ⟨answer, this⟩)
    · exact ⟨answer, .inl before⟩
    · exact ⟨answer, .inr this.symm⟩

theorem made_concat {first : AllSettings} {past : List (Event net)} {e : Event net} :
    CookieStoreMade first (past ++ [e]) ↔
      CookieStoreMade first past ∨ MakesCookieStore first past e := Runs.happened_concat

theorem afterStore_concat {first : AllSettings} {past : List (Event net)} {e : Event net} :
    FavoritesAfterStore first (past ++ [e]) ↔
      FavoritesAfterStore first past ∧ FindsCookieStore first past e := Runs.throughout_concat

theorem validFavorites_of_concat {lib : UrlLibrary} {past : List (Event net)} {e : Event net}
    (valid : ValidFavorites lib (past ++ [e])) : ValidFavorites lib past :=
  fun update member => valid update (List.mem_append_left _ member)

/-! The process knows its past. -/

variable {Cookie : Type} {lib : UrlLibrary} {cs : CookieStore Cookie} {first : AllSettings}
  {past : List (Event net)} {s s' : BrowserProcess net Cookie}

/-- The favorites are those of the last message, in a store that is there. -/
def RoutesByLast (lib : UrlLibrary) (past : List (Event net)) (s : BrowserProcess net Cookie) :
    Prop :=
  ∀ update ∈ lastFavorites past,
    s.io.shared.cookieStore.isSome = true ∧ s.cookies.favorites = favoritesOf lib update

structure Remembers (lib : UrlLibrary) (first : AllSettings) (past : List (Event net))
    (s : BrowserProcess net Cookie) : Prop where
  settings : s.browser.settings = lastSettings first past
  path : s.io.contextPath.isEmpty = false
  used : ∀ client, (s.io.urlRequestContext client).isSome = true ↔ Used past client
  made : s.io.shared.cookieStore.isSome = true ↔ CookieStoreMade first past
  aborted : ValidFavorites lib past → (s.aborted = false ↔ FavoritesAfterStore first past)
  favorites : s.aborted = false → RoutesByLast lib past s

theorem construct_transient {io : IoState} {answer : UpdateFavoritesResponse}
    {cookies : SplitCookieStore Cookie}
    (constructed : s.constructCookieStore lib io answer = some cookies) :
    cookies.transient = s.cookies.transient := by
  unfold constructCookieStore at constructed
  split at constructed
  · exact (CookieRuns.updateFavorites_stores constructed).2
  · cases constructed
    rfl

theorem use_cases {client : Client} {answer : UpdateFavoritesResponse}
    (taken : s.use lib client answer = some s') :
    (∃ context, s.io.urlRequestContext client = some context ∧ s' = s) ∨
    ∃ context io cookies, s.io.urlRequestContext client = none ∧
      IoState.FirstUse s.io io s.browser.settings client context ∧
      (s.io.shared.cookieStore.isSome = true → cookies = s.cookies) ∧
      cookies.transient = s.cookies.transient ∧ s' = { s with io, cookies } := by
  simp only [use, Option.bind_eq_bind, Option.bind_eq_some_iff] at taken
  obtain ⟨⟨context, io⟩, asked, cookies, constructed, rest⟩ := taken
  cases rest
  cases used : s.io.urlRequestContext client with
  | some before =>
    rw [IoState.getURLRequestContext_again used] at asked
    cases asked
    have same : s.constructCookieStore lib s.io answer = some s.cookies := by
      simp [constructCookieStore]
    cases same.symm.trans constructed
    exact .inl ⟨context, rfl, rfl⟩
  | none =>
    refine .inr ⟨context, io, cookies, rfl, IoState.getURLRequestContext_first used asked, ?_,
      construct_transient constructed, rfl⟩
    intro made
    have same : s.constructCookieStore lib io answer = some s.cookies := by
      simp [constructCookieStore, Option.isNone_eq_false_iff.mpr made]
    exact Option.some.inj (constructed.symm.trans same)

/-- No getter fails a CHECK; only an answer of Java's with a bad URL ends the process. -/
theorem use_total (s : BrowserProcess net Cookie) (client : Client)
    {answer : UpdateFavoritesResponse}
    (valid : ValidUrls lib answer) : ∃ s', s.use lib client answer = some s' := by
  obtain ⟨context, io, asked⟩ :=
    IoState.getURLRequestContext_total s.io s.browser.settings client
  have constructed : ∃ cookies, s.constructCookieStore lib io answer = some cookies := by
    unfold constructCookieStore
    split
    · exact ⟨_, (SplitCookieStore.updateFavorites_eq lib s.cookies answer).trans (if_pos valid)⟩
    · exact ⟨s.cookies, rfl⟩
  obtain ⟨cookies, constructed⟩ := constructed
  exact ⟨{ s with io, cookies }, by simp [use, asked, constructed]⟩

/-- An event that brings no favorites leaves those of a store that is there. -/
theorem remembers_next {e : Event net} (h : Remembers lib first past s)
    (other : ∀ update, e ≠ .updateFavoritesResponse update)
    (settings : s'.browser.settings = lastSettings first (past ++ [e]))
    (path : s'.io.contextPath = s.io.contextPath)
    (used : ∀ client, (s'.io.urlRequestContext client).isSome = true ↔
      (s.io.urlRequestContext client).isSome = true ∨ ∃ answer, e = .use client answer)
    (made : s'.io.shared.cookieStore.isSome = true ↔
      s.io.shared.cookieStore.isSome = true ∨ MakesCookieStore first past e)
    (aborted : s'.aborted = s.aborted)
    (favorites : s.io.shared.cookieStore.isSome = true →
      s'.cookies.favorites = s.cookies.favorites) : Remembers lib first (past ++ [e]) s' := by
  have finds : FindsCookieStore first past e := by
    cases e with
    | updateFavoritesResponse update => exact absurd rfl (other update)
    | _ => trivial
  have sameFavorites : lastFavorites (past ++ [e]) = lastFavorites past := by
    rw [lastFavorites_concat]
    cases e with
    | updateFavoritesResponse update => exact absurd rfl (other update)
    | _ => rfl
  constructor
  · exact settings
  · rw [path]
    exact h.path
  · intro client
    rw [used, h.used, used_concat]
  · rw [made, h.made, made_concat]
  · intro valid
    rw [aborted, h.aborted (validFavorites_of_concat valid), afterStore_concat]
    exact ⟨fun after => ⟨after, finds⟩, And.left⟩
  · intro alive update last
    rw [sameFavorites] at last
    obtain ⟨there, routes⟩ := h.favorites (aborted ▸ alive) update last
    exact ⟨made.mpr (.inl there), (favorites there).trans routes⟩

theorem makes_use_iff {client : Client} {answer : UpdateFavoritesResponse}
    (h : Remembers lib first past s) (unused : s.io.urlRequestContext client = none) :
    MakesCookieStore first past (.use client answer) ↔
      (s.io.mayShare s.browser.settings client &&
        s.browser.settings.state.allowPersistantCookies) = true := by
  have new : ¬ Used past client := by
    rw [← h.used, unused]
    simp
  cases client with
  | fetcher => simp [MakesCookieStore, IoState.mayShare, IoState.basePath]
  | context c =>
    simp [MakesCookieStore, IoState.mayShare, IoState.basePath, h.path, ← h.settings, new]

theorem use_remembers {client : Client} {answer : UpdateFavoritesResponse}
    (h : Remembers lib first past s) (taken : s.use lib client answer = some s') :
    Remembers lib first (past ++ [.use client answer]) s' := by
  have settings : s.browser.settings = lastSettings first (past ++ [.use client answer]) := by
    rw [lastSettings_concat]
    exact h.settings
  rcases use_cases taken with ⟨context, used, rfl⟩ |
    ⟨context, io, cookies, unused, firstUse, kept, _, rfl⟩
  · have again : ¬ MakesCookieStore first past (.use client answer) := by
      have before : Used past client := (h.used client).mp (by simp [used])
      cases client with
      | fetcher => exact id
      | context c => exact fun makes => makes.1 before
    refine remembers_next h (fun _ => nofun) settings rfl (fun other => ?_) ?_ rfl fun _ => rfl
    · refine ⟨.inl, fun either => either.elim id ?_⟩
      rintro ⟨_, same⟩
      cases same
      simp [used]
    · exact ⟨.inl, fun made => made.resolve_right again⟩
  · obtain ⟨io₁, chosen, rfl⟩ := firstUse.chosen
    refine remembers_next h (fun _ => nofun) settings chosen.path (fun other => ?_) ?_ rfl ?_
    · by_cases same : other = client
      · subst same
        simp [HashMap.set_apply]
      · have apart : client ≠ other := fun eq => same eq.symm
        simp [HashMap.set_apply, same, apart, chosen.getters]
    · rw [makes_use_iff h unused]
      simp [chosen.cookieStore]
    · intro there
      exact congrArg SplitCookieStore.favorites (kept there)

theorem silent_remembers {e : Event net} (h : Remembers lib first past s)
    (unused : ∀ client answer, e ≠ .use client answer)
    (other : ∀ update, e ≠ .updateFavoritesResponse update)
    (settings : s'.browser.settings = lastSettings first (past ++ [e])) (io : s'.io = s.io)
    (favorites : s'.cookies.favorites = s.cookies.favorites) (aborted : s'.aborted = s.aborted) :
    Remembers lib first (past ++ [e]) s' := by
  have nothing : ¬ MakesCookieStore first past e := by
    cases e with
    | use client answer => exact absurd rfl (unused client answer)
    | _ => exact id
  refine remembers_next h other settings (by rw [io]) (fun client => ?_) ?_ aborted
    fun _ => favorites
  · rw [io]
    refine ⟨.inl, fun either => either.elim id ?_⟩
    rintro ⟨answer, same⟩
    exact absurd same (unused client answer)
  · rw [io]
    exact ⟨.inl, fun made => made.resolve_right nothing⟩

/-- What the writes and deletions of data leave alone. -/
structure Untouched (s s' : BrowserProcess net Cookie) : Prop where
  browser : s'.browser = s.browser := by rfl
  io : s'.io = s.io := by rfl
  favorites : s'.cookies.favorites = s.cookies.favorites := by rfl
  aborted : s'.aborted = s.aborted := by rfl

theorem setCookie_untouched (s : BrowserProcess net Cookie) (store : StoreRef) (now : Time)
    (url : Gurl)
    (line : Str) (options : CookieOptions) :
    Untouched s (s.setCookie lib cs store now url line options) := by
  cases store with
  | shared =>
    simp only [setCookie, SplitCookieStore.setCookieWithOptions, SplitCookieStore.onStoreForURL]
    split
    · exact {}
    · exact {}
  | own n => exact {}

theorem useCache_untouched (s : BrowserProcess net Cookie) (store : StoreRef)
    (use : net.cache.Use) : Untouched s (s.useCache store use) := by
  cases store
  · exact {}
  · exact {}

theorem useHsts_untouched (s : BrowserProcess net Cookie) (store : StoreRef)
    (use : net.hsts.Use) : Untouched s (s.useHsts store use) := by
  cases store
  · exact {}
  · exact {}

theorem Untouched.trans {t : BrowserProcess net Cookie} (h : Untouched s s') (h' : Untouched s' t) :
    Untouched s t :=
  ⟨h'.browser.trans h.browser, h'.io.trans h.io, h'.favorites.trans h.favorites,
    h'.aborted.trans h.aborted⟩

theorem clearCookies_untouched (s : BrowserProcess net Cookie) (now : Time) :
    Untouched s (s.clearCookies cs now) := by
  unfold clearCookies
  split
  · exact {}
  · exact {}

theorem clearCache_untouched (s : BrowserProcess net Cookie) : Untouched s s.clearCache := by
  unfold clearCache
  split
  · exact {}
  · exact {}

theorem clearHsts_untouched (s : BrowserProcess net Cookie) : Untouched s s.clearHsts := by
  unfold clearHsts
  split
  · exact {}
  · exact {}

variable (cs) in
theorem clearData_untouched (s : BrowserProcess net Cookie) (now : Time) :
    Untouched s (s.clearData cs now) :=
  ((clearCookies_untouched s now).trans (clearCache_untouched _)).trans (clearHsts_untouched _)

def Event.onData : Event net → Bool
  | .shells _ => false
  | .use _ _ => false
  | .updateFavoritesResponse _ => false
  | _ => true

theorem step_alive {e : Event net} (taken : step lib cs s e = some s') :
    s.aborted = false ∧ s.act lib cs e = some s' := by
  unfold step at taken
  split at taken
  · cases taken
  · next alive => exact ⟨Bool.eq_false_iff.mpr alive, taken⟩

theorem data_untouched {e : Event net} (data : e.onData = true)
    (taken : s.act lib cs e = some s') : Untouched s s' := by
  cases e with
  | shells => cases data
  | use => cases data
  | updateFavoritesResponse => cases data
  | setCookie client now url line options =>
    obtain ⟨context, _, rfl⟩ := Option.map_eq_some_iff.mp taken
    exact setCookie_untouched s context.cookieStore now url line options
  | useCache client use =>
    obtain ⟨context, _, rfl⟩ := Option.map_eq_some_iff.mp taken
    exact useCache_untouched s context.httpCache use
  | useHsts client use =>
    obtain ⟨context, _, rfl⟩ := Option.map_eq_some_iff.mp taken
    exact useHsts_untouched s context.transportSecurityState use
  | cacheActs use =>
    simp only [act, Option.ite_none_right_eq_some, Option.some.injEq] at taken
    obtain ⟨_, rfl⟩ := taken
    exact useCache_untouched s .shared use
  | hstsActs use =>
    simp only [act, Option.ite_none_right_eq_some, Option.some.injEq] at taken
    obtain ⟨_, rfl⟩ := taken
    exact useHsts_untouched s .shared use
  | clearData now =>
    cases taken
    exact clearData_untouched cs s now

theorem untouched_remembers {e : Event net} (h : Remembers lib first past s)
    (data : e.onData = true)
    (same : Untouched s s') : Remembers lib first (past ++ [e]) s' := by
  refine silent_remembers h ?_ ?_ ?_ same.io same.favorites same.aborted
  · rintro client answer rfl
    cases data
  · rintro update rfl
    cases data
  · rw [same.browser, h.settings, lastSettings_concat]
    cases e with
    | shells => cases data
    | _ => rfl

theorem shells_remembers {e : ShellRuns.Event} {b : Browser} (h : Remembers lib first past s)
    (stepped : ShellRuns.step s.browser e = some b) :
    Remembers lib first (past ++ [.shells e]) { s with browser := b } := by
  refine silent_remembers h (fun _ _ => nofun) (fun _ => nofun) ?_ rfl rfl rfl
  rw [lastSettings_concat]
  cases e with
  | updateGlobalSettings newSettings =>
    cases stepped
    rfl
  | _ =>
    rcases ShellRuns.step_settings stepped with same | ⟨_, other, _⟩
    · exact same.trans h.settings
    · cases other

theorem updateFavorites_aborts (update : UpdateFavoritesResponse)
    (none : s.io.shared.cookieStore = none) :
    s.updateFavoritesResponse lib update = { s with aborted := true } := by
  simp [updateFavoritesResponse, IoState.getSplitCookieStore, IoState.getCookieStore, none]

theorem updateFavorites_finds (update : UpdateFavoritesResponse)
    (made : s.io.shared.cookieStore.isSome = true) :
    s.updateFavoritesResponse lib update = if ValidUrls lib update then
      { s with cookies := { s.cookies with favorites := favoritesOf lib update } }
    else { s with aborted := true } := by
  obtain ⟨dir, there⟩ := Option.isSome_iff_exists.mp made
  have found : s.io.getSplitCookieStore = some (.shared, s.io) := by
    simp [IoState.getSplitCookieStore, IoState.getCookieStore, there]
  simp only [updateFavoritesResponse, found, SplitCookieStore.updateFavorites_eq]
  by_cases valid : ValidUrls lib update
  · simp [valid]
  · simp [valid]

section
variable {update : UpdateFavoritesResponse}

theorem message_settings (h : Remembers lib first past s) :
    s.browser.settings = lastSettings first (past ++ [.updateFavoritesResponse update]) := by
  rw [lastSettings_concat]
  exact h.settings

theorem message_used (h : Remembers lib first past s) (client : Client) :
    (s.io.urlRequestContext client).isSome = true ↔
      Used (past ++ [.updateFavoritesResponse update]) client := by
  rw [h.used, used_concat]
  simp

theorem message_made (h : Remembers lib first past s) :
    s.io.shared.cookieStore.isSome = true ↔
      CookieStoreMade first (past ++ [.updateFavoritesResponse update]) := by
  rw [h.made, made_concat]
  simp [MakesCookieStore]

theorem message_aborts (h : Remembers lib first past s)
    (aborts : ValidFavorites lib (past ++ [.updateFavoritesResponse update]) →
      ¬ CookieStoreMade first past) :
    Remembers lib first (past ++ [.updateFavoritesResponse update]) { s with aborted := true } := by
  constructor
  · exact message_settings (s := s) h
  · exact h.path
  · exact message_used (s := s) h
  · exact message_made (s := s) h
  · intro valid
    apply iff_of_false nofun
    intro after
    exact aborts valid (afterStore_concat.mp after).2
  · exact nofun

theorem message_taken (h : Remembers lib first past s) (alive : s.aborted = false)
    (made : s.io.shared.cookieStore.isSome = true) :
    Remembers lib first (past ++ [.updateFavoritesResponse update])
      { s with cookies := { s.cookies with favorites := favoritesOf lib update } } := by
  constructor
  · exact message_settings (s := s) h
  · exact h.path
  · exact message_used (s := s) h
  · exact message_made (s := s) h
  · intro valid
    rw [afterStore_concat]
    have after := (h.aborted (validFavorites_of_concat valid)).mp alive
    exact iff_of_true alive ⟨after, h.made.mp made⟩
  · intro _ last hlast
    rw [lastFavorites_concat] at hlast
    cases hlast
    exact ⟨made, rfl⟩

/-- A message changes the favorites or aborts the process, and nothing else. -/
theorem message_remembers (h : Remembers lib first past s) (alive : s.aborted = false) :
    Remembers lib first (past ++ [.updateFavoritesResponse update])
      (s.updateFavoritesResponse lib update) := by
  cases there : s.io.shared.cookieStore with
  | none =>
    rw [updateFavorites_aborts update there]
    apply message_aborts h
    intro _ was
    have impossible := h.made.mpr was
    simp [there] at impossible
  | some dir =>
    have isThere : s.io.shared.cookieStore.isSome = true := by simp [there]
    rw [updateFavorites_finds update isThere]
    split
    · exact message_taken h alive isThere
    · next bad =>
      apply message_aborts h
      intro valid
      exact absurd (valid update (List.mem_append_right _ List.mem_cons_self)) bad

end

theorem step_remembers {e : Event net} (h : Remembers lib first past s)
    (taken : step lib cs s e = some s') : Remembers lib first (past ++ [e]) s' := by
  obtain ⟨alive, acted⟩ := step_alive taken
  by_cases data : e.onData = true
  · exact untouched_remembers h data (data_untouched data acted)
  · cases e with
    | shells e =>
      obtain ⟨b, stepped, rfl⟩ := Option.map_eq_some_iff.mp acted
      exact shells_remembers h stepped
    | use client answer =>
      simp only [act, Option.ite_none_right_eq_some] at acted
      exact use_remembers h acted.2
    | updateFavoritesResponse update =>
      cases acted
      exact message_remembers h alive
    | _ => exact absurd rfl data

theorem run_remembers {dataDir : Str} {disk : Disk net Cookie} {es : List (Event net)}
    {t : BrowserProcess net Cookie}
    (reached : Runs.run (step lib cs) (initial first dataDir disk) es = some t) :
    Remembers lib first es t := by
  have start : Remembers lib first [] (initial first dataDir disk) := by
    refine ⟨rfl, ?_, ?_, ?_, ?_, fun _ update last => nomatch last⟩
    · simp [initial, append]
    · simp [initial, Used]
    · exact iff_of_false nofun Runs.happened_nil
    · exact fun _ => iff_of_true rfl Runs.throughout_nil
  exact Runs.invariant_history [] start (fun _ _ _ _ h taken => step_remembers h taken) reached

/-- The process survives its favorites messages, and routes by the last of them, exactly
when none of them comes before a browser context was first used with `single_context` and
`allow_persistant_cookies` on. -/
theorem favorites_never_abort_iff {dataDir : Str} {disk : Disk net Cookie} {es : List (Event net)}
    {t : BrowserProcess net Cookie} (valid : ValidFavorites lib es)
    (reached : Runs.run (step lib cs) (initial first dataDir disk) es = some t) :
    (t.aborted = false ∧ (t.io.shared.cookieStore.isSome = true →
        ∀ update ∈ lastFavorites es, t.cookies.favorites = favoritesOf lib update)) ↔
      FavoritesAfterStore first es := by
  have h := run_remembers reached
  rw [← h.aborted valid]
  refine ⟨And.left, fun alive => ⟨alive, fun _ update last => ?_⟩⟩
  exact (h.favorites alive update last).2

def favorite : UpdateFavoritesResponse := ⟨["http://a.com/".toList]⟩

/-- A page is opened, and then the user makes a favorite. -/
def usedFirst : List (Event plainNet) :=
  [.shells (.launchShell 0), .use (.context .global) ⟨[]⟩, .updateFavoritesResponse favorite]

theorem favorites_never_abort_iff_used :
    ∃ t, Runs.run (step plainUrls plainStore) (initial {} "data".toList {}) usedFirst = some t ∧
      t.aborted = false ∧ t.cookies.favorites = {"a.com".toList} := by
  have seen : (Runs.run (step plainUrls plainStore) (initial {} "data".toList {})
      usedFirst).map (fun t => t.io.shared.cookieStore.isSome) = some true := by decide +kernel
  obtain ⟨t, reached, there⟩ := Option.map_eq_some_iff.mp seen
  have valid : ValidFavorites plainUrls usedFirst := by
    intro update member
    have this : update = favorite := by simpa [usedFirst] using member
    subst this
    decide
  have made : CookieStoreMade {}
      ([.shells (.launchShell 0), .use (.context .global) ⟨[]⟩] : List (Event plainNet)) :=
    ⟨[.shells (.launchShell 0)], _, [], rfl, by simp [Used], rfl, rfl⟩
  have after : FavoritesAfterStore {}
      (([] : List (Event plainNet)) ++ [.shells (.launchShell 0)] ++
        [.use (.context .global) ⟨[]⟩] ++ [.updateFavoritesResponse favorite]) := by
    rw [afterStore_concat, afterStore_concat, afterStore_concat]
    exact ⟨⟨⟨Runs.throughout_nil, trivial⟩, trivial⟩, made⟩
  obtain ⟨alive, routes⟩ := (favorites_never_abort_iff valid reached).mpr after
  have hosts : favoritesOf plainUrls favorite = {"a.com".toList} := by decide
  exact ⟨t, reached, alive, (routes there favorite rfl).trans hosts⟩

/-- The user makes a favorite before any page is opened. -/
theorem early_favorite_aborts :
    ∃ t : BrowserProcess plainNet _, Runs.run (step plainUrls plainStore)
        (initial {} "data".toList {}) [.updateFavoritesResponse favorite] = some t ∧
      ValidUrls plainUrls favorite ∧ t.aborted = true :=
  ⟨_, rfl, by decide, rfl⟩

end Seaturtle.BrowserProcess
