import Seaturtle.Shell.RequestContext

/-! The first use of a getter: which shared stores it makes, and which ones it uses. -/
namespace Seaturtle.IoState

/-- What a choice of stores changes: the shared cookie store is made if `cookies`, the other
shared stores if `caches`. -/
structure Chosen (io io' : IoState) (cookies caches : Bool) : Prop where
  getters : io'.urlRequestContext = io.urlRequestContext
  path : io'.contextPath = io.contextPath
  cookieStore : io'.shared.cookieStore.isSome = (io.shared.cookieStore.isSome || cookies)
  transportSecurityState : io'.shared.transportSecurityState.isSome =
    (io.shared.transportSecurityState.isSome || caches)
  httpCache : io'.shared.httpCache.isSome = (io.shared.httpCache.isSome || caches)

variable {io io' : IoState} {settings : AllSettings} {client : Client}

theorem createStore_chosen (io : IoState) : Chosen io io.createStore.2 false false :=
  ⟨rfl, rfl, by simp [createStore], by simp [createStore], by simp [createStore]⟩

theorem getCookieStore_chosen {path : Str} {store : StoreRef}
    (chosen : io.getCookieStore path = some (store, io')) :
    Chosen io io' true false ∧ store = .shared := by
  unfold getCookieStore at chosen
  split at chosen
  · next dir made =>
    cases chosen
    exact ⟨⟨rfl, rfl, by simp [made], by simp, by simp⟩, rfl⟩
  · split at chosen
    · cases chosen
    · cases chosen
      exact ⟨⟨rfl, rfl, by simp, by simp, by simp⟩, rfl⟩

theorem chooseCookieStore_chosen {store : StoreRef}
    (chosen : io.chooseCookieStore settings client = some (store, io')) :
    Chosen io io' (io.mayShare settings client && settings.state.allowPersistantCookies) false ∧
      (store = .shared ↔
        (io.mayShare settings client && settings.state.allowPersistantCookies) = true) := by
  unfold chooseCookieStore at chosen
  split at chosen
  · next shares =>
    obtain ⟨same, rfl⟩ := getCookieStore_chosen chosen
    rw [shares]
    exact ⟨same, by simp⟩
  · next shares =>
    cases chosen
    rw [Bool.not_eq_true] at shares
    rw [shares]
    exact ⟨createStore_chosen io, by simp⟩

theorem getTransportSecurityState_eq {path : Str} {store : StoreRef}
    (chosen : io.getTransportSecurityState path = some (store, io')) :
    store = .shared ∧ io'.shared.transportSecurityState.isSome = true ∧
      ∃ dir, io' = { io with shared := { io.shared with transportSecurityState := dir } } := by
  unfold getTransportSecurityState at chosen
  split at chosen
  · cases chosen
  · split at chosen
    · next dir made =>
      cases chosen
      exact ⟨rfl, by simp [made], io.shared.transportSecurityState, rfl⟩
    · cases chosen
      exact ⟨rfl, by simp, _, rfl⟩

theorem getHttpCache_eq {path : Str} {size : Int} {store : StoreRef}
    (chosen : io.getHttpCache path size = some (store, io')) :
    store = .shared ∧ io'.shared.httpCache.isSome = true ∧
      ∃ dir, io' = { io with shared := { io.shared with httpCache := dir } } := by
  unfold getHttpCache at chosen
  split at chosen
  · cases chosen
  · split at chosen
    · next dir made =>
      cases chosen
      exact ⟨rfl, by simp [made], io.shared.httpCache, rfl⟩
    · cases chosen
      exact ⟨rfl, by simp, _, rfl⟩

theorem chooseCaches_chosen {tss cache sdch : StoreRef}
    (chosen : io.chooseCaches settings client = some ((tss, cache, sdch), io')) :
    Chosen io io' false (io.mayShare settings client && settings.state.persistCache) ∧
      (tss = .shared ↔ (io.mayShare settings client && settings.state.persistCache) = true) ∧
      (cache = .shared ↔ (io.mayShare settings client && settings.state.persistCache) = true) := by
  unfold chooseCaches at chosen
  split at chosen
  · next shares =>
    simp only [Option.bind_eq_bind, Option.bind_eq_some_iff] at chosen
    obtain ⟨⟨tss', io₁⟩, tssMade, ⟨cache', io₂⟩, cacheMade, rest⟩ := chosen
    obtain ⟨rfl, hasTss, dir, rfl⟩ := getTransportSecurityState_eq tssMade
    obtain ⟨rfl, hasCache, dir', rfl⟩ := getHttpCache_eq cacheMade
    cases rest
    rw [shares]
    refine ⟨⟨rfl, rfl, by simp [getSdch], ?_, ?_⟩, by simp, by simp⟩
    · simpa [getSdch] using hasTss
    · simpa [getSdch] using hasCache
  · next shares =>
    cases chosen
    rw [Bool.not_eq_true] at shares
    rw [shares]
    refine ⟨⟨rfl, rfl, ?_, ?_, ?_⟩, by simp, by simp⟩
    all_goals simp

theorem Chosen.trans {io₁ : IoState} {cookies caches cookies' caches' : Bool}
    (h : Chosen io io₁ cookies caches) (h' : Chosen io₁ io' cookies' caches') :
    Chosen io io' (cookies || cookies') (caches || caches') := by
  constructor
  · exact h'.getters.trans h.getters
  · exact h'.path.trans h.path
  · rw [h'.cookieStore, h.cookieStore, Bool.or_assoc]
  · rw [h'.transportSecurityState, h.transportSecurityState, Bool.or_assoc]
  · rw [h'.httpCache, h.httpCache, Bool.or_assoc]

/-- What the first use of a getter makes and what it puts into the context. -/
structure FirstUse (io io' : IoState) (settings : AllSettings) (client : Client)
    (context : RequestContext) : Prop where
  chosen : ∃ io₁, Chosen io io₁
      (io.mayShare settings client && settings.state.allowPersistantCookies)
      (io.mayShare settings client && settings.state.persistCache) ∧
    io' = { io₁ with urlRequestContext := io₁.urlRequestContext.set client context }
  cookieStore : context.cookieStore = .shared ↔
    (io.mayShare settings client && settings.state.allowPersistantCookies) = true
  transportSecurityState : context.transportSecurityState = .shared ↔
    (io.mayShare settings client && settings.state.persistCache) = true
  httpCache : context.httpCache = .shared ↔
    (io.mayShare settings client && settings.state.persistCache) = true

theorem getURLRequestContext_first {context : RequestContext}
    (unused : io.urlRequestContext client = none)
    (asked : io.getURLRequestContext settings client = some (context, io')) :
    FirstUse io io' settings client context := by
  simp only [getURLRequestContext, unused, Option.bind_eq_bind, Option.bind_eq_some_iff] at asked
  obtain ⟨⟨cookies, io₁⟩, cookiesChosen, ⟨⟨tss, cache, sdch⟩, io₂⟩, cachesChosen, rest⟩ := asked
  cases rest
  obtain ⟨first, sharedCookies⟩ := chooseCookieStore_chosen cookiesChosen
  obtain ⟨second, sharedTss, sharedCache⟩ := chooseCaches_chosen cachesChosen
  have same : io₁.mayShare settings client = io.mayShare settings client := by
    cases client
    · simp [mayShare, basePath, first.path]
    · simp [mayShare, basePath]
  rw [same] at second sharedTss sharedCache
  have both := first.trans second
  rw [Bool.or_false, Bool.false_or] at both
  exact ⟨⟨io₂, both, rfl⟩, sharedCookies, sharedTss, sharedCache⟩

variable (io) in
theorem chooseCookieStore_total (settings : AllSettings) (client : Client) :
    ∃ store io', io.chooseCookieStore settings client = some (store, io') := by
  unfold chooseCookieStore
  split
  · next shares =>
    simp only [mayShare, Bool.and_eq_true, Bool.not_eq_true'] at shares
    unfold getCookieStore
    split
    · exact ⟨_, _, rfl⟩
    · rw [shares.1.1]
      exact ⟨_, _, rfl⟩
  · exact ⟨_, _, rfl⟩

variable (io) in
theorem getTransportSecurityState_total {path : Str} (some_path : path.isEmpty = false) :
    ∃ store io', io.getTransportSecurityState path = some (store, io') := by
  simp only [getTransportSecurityState, some_path, Bool.false_eq_true, if_false]
  split
  · exact ⟨_, _, rfl⟩
  · exact ⟨_, _, rfl⟩

variable (io) in
theorem getHttpCache_total {path : Str} (some_path : path.isEmpty = false) (size : Int) :
    ∃ store io', io.getHttpCache path size = some (store, io') := by
  simp only [getHttpCache, some_path, Bool.false_eq_true, if_false]
  split
  · exact ⟨_, _, rfl⟩
  · exact ⟨_, _, rfl⟩

variable (io) in
theorem chooseCaches_total (settings : AllSettings) (client : Client) :
    ∃ stores io', io.chooseCaches settings client = some (stores, io') := by
  unfold chooseCaches
  split
  · next shares =>
    simp only [mayShare, Bool.and_eq_true, Bool.not_eq_true'] at shares
    obtain ⟨tss, io₁, tssMade⟩ := getTransportSecurityState_total io shares.1.1
    obtain ⟨_, _, dir, same⟩ := getTransportSecurityState_eq tssMade
    have path : (io₁.basePath client).isEmpty = false := by
      subst same
      cases client
      · exact shares.1.1
      · exact shares.1.1
    obtain ⟨cache, io₂, cacheMade⟩ := getHttpCache_total io₁ path
      (toInt32 (settings.state.diskCacheSizeMb * 1024 * 1024))
    simp [tssMade, cacheMade]
  · exact ⟨_, _, rfl⟩

/-- No CHECK of a getter fails: it asks for a shared store only where it has a path. -/
theorem getURLRequestContext_total (io : IoState) (settings : AllSettings) (client : Client) :
    ∃ context io', io.getURLRequestContext settings client = some (context, io') := by
  unfold getURLRequestContext
  split
  · exact ⟨_, _, rfl⟩
  · obtain ⟨cookies, io₁, cookiesChosen⟩ := chooseCookieStore_total io settings client
    obtain ⟨⟨tss, cache, sdch⟩, io₂, cachesChosen⟩ := chooseCaches_total io₁ settings client
    simp [cookiesChosen, cachesChosen]

theorem getURLRequestContext_again {context : RequestContext}
    (used : io.urlRequestContext client = some context) :
    io.getURLRequestContext settings client = some (context, io) := by
  rw [getURLRequestContext, used]

end Seaturtle.IoState
