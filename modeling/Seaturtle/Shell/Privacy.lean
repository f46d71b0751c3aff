import Seaturtle.Shell.Clearing
import Seaturtle.Lib.Tenants

/-! What the stores of single contexts contain, and what runs leave on disk. A context that has
a store of its own finds in it what it has put there itself, whatever the other tabs do and
however the settings change. -/
namespace Seaturtle

def StoreRef.number : StoreRef → Option Nat
  | .shared => none
  | .own n => some n

/-! The stores of a first use. -/

namespace IoState
variable {io io' : IoState} {settings : AllSettings} {client : Client}

/-- The stores are shared, or have been made here. -/
structure Issued (io io' : IoState) (stores : List StoreRef) : Prop where
  next : io.nextStore ≤ io'.nextStore
  made : ∀ store ∈ stores, ∀ n, store = .own n → io.nextStore ≤ n ∧ n < io'.nextStore

theorem issued_shared {stores : List StoreRef} (same : io'.nextStore = io.nextStore)
    (shared : ∀ store ∈ stores, store = .shared) : Issued io io' stores := by
  refine ⟨Nat.le_of_eq same.symm, fun store member n own => ?_⟩
  rw [shared store member] at own
  cases own

theorem issued_created (io : IoState) : Issued io io.createStore.2 [io.createStore.1] := by
  refine ⟨Nat.le_succ _, fun store member n own => ?_⟩
  cases List.mem_singleton.mp member
  cases own
  exact ⟨Nat.le_refl _, Nat.lt_succ_self _⟩

theorem Issued.append {io₁ : IoState} {stores stores' : List StoreRef}
    (h : Issued io io₁ stores) (h' : Issued io₁ io' stores') :
    Issued io io' (stores ++ stores') := by
  refine ⟨Nat.le_trans h.next h'.next, fun store member n own => ?_⟩
  rcases List.mem_append.mp member with first | second
  · have := h.made store first n own
    exact ⟨this.1, Nat.lt_of_lt_of_le this.2 h'.next⟩
  · have := h'.made store second n own
    exact ⟨Nat.le_trans h.next this.1, this.2⟩

theorem chooseCookieStore_issued {store : StoreRef}
    (chosen : io.chooseCookieStore settings client = some (store, io')) :
    Issued io io' [store] := by
  unfold chooseCookieStore at chosen
  split at chosen
  · unfold getCookieStore at chosen
    split at chosen
    · cases chosen
      exact issued_shared rfl (by simp)
    · split at chosen
      · cases chosen
      · cases chosen
        exact issued_shared rfl (by simp)
  · cases chosen
    exact issued_created io

theorem chooseCaches_issued {tss cache sdch : StoreRef}
    (chosen : io.chooseCaches settings client = some ((tss, cache, sdch), io')) :
    Issued io io' [tss, cache, sdch] := by
  unfold chooseCaches at chosen
  split at chosen
  · simp only [Option.bind_eq_bind, Option.bind_eq_some_iff] at chosen
    obtain ⟨⟨tss', io₁⟩, tssMade, ⟨cache', io₂⟩, cacheMade, rest⟩ := chosen
    obtain ⟨rfl, _, dir, rfl⟩ := getTransportSecurityState_eq tssMade
    obtain ⟨rfl, _, dir', rfl⟩ := getHttpCache_eq cacheMade
    cases rest
    exact issued_shared rfl (by simp [getSdch])
  · cases chosen
    exact (issued_created io).append ((issued_created _).append (issued_created _))

theorem getURLRequestContext_issued {context : RequestContext}
    (unused : io.urlRequestContext client = none)
    (asked : io.getURLRequestContext settings client = some (context, io')) :
    Issued io io' context.stores := by
  simp only [getURLRequestContext, unused, Option.bind_eq_bind, Option.bind_eq_some_iff] at asked
  obtain ⟨⟨cookies, io₁⟩, cookiesChosen, ⟨⟨tss, cache, sdch⟩, io₂⟩, cachesChosen, rest⟩ := asked
  cases rest
  have both := (chooseCookieStore_issued cookiesChosen).append (chooseCaches_issued cachesChosen)
  exact ⟨both.next, both.made⟩

/-- The number of the store that the client has for itself, if it has one. -/
def ownNumber (io : IoState) (store : RequestContext → StoreRef) (client : Client) : Option Nat :=
  (io.urlRequestContext client).bind fun context => (store context).number

end IoState

namespace BrowserProcess
open CookieRuns (plainStore plainUrls exampleUrl)

variable {net : NetLibrary} {Cookie : Type} {lib : UrlLibrary} {cs : CookieStore Cookie}

/-! What a client has put into its stores. -/

def cookiesOf (cs : CookieStore Cookie) (client : Client) (past : List (Event net)) : List Cookie :=
  past.foldl (fun content e => match e with
    | .setCookie c now url line options =>
      if c = client then (cs.setCookieWithOptions now url line options content).2 else content
    | _ => content) []

def cacheOf (client : Client) (past : List (Event net)) : net.cache.Memory :=
  past.foldl (fun content e => match e with
    | .useCache c use => if c = client then net.cache.useInMemory use content else content
    | _ => content) net.cache.made

def hstsOf (client : Client) (past : List (Event net)) : net.hsts.Memory :=
  past.foldl (fun content e => match e with
    | .useHsts c use => if c = client then net.hsts.useInMemory use content else content
    | _ => content) net.hsts.made

theorem cookiesOf_concat (cs : CookieStore Cookie) (client : Client) (past : List (Event net))
    (e : Event net) :
    cookiesOf cs client (past ++ [e]) = match e with
      | .setCookie c now url line options =>
        if c = client then
          (cs.setCookieWithOptions now url line options (cookiesOf cs client past)).2
        else cookiesOf cs client past
      | _ => cookiesOf cs client past := by
  rw [cookiesOf, List.foldl_concat]
  rfl

theorem cacheOf_concat (client : Client) (past : List (Event net)) (e : Event net) :
    cacheOf client (past ++ [e]) = match e with
      | .useCache c use =>
        if c = client then net.cache.useInMemory use (cacheOf client past) else cacheOf client past
      | _ => cacheOf client past := by
  rw [cacheOf, List.foldl_concat]
  rfl

theorem hstsOf_concat (client : Client) (past : List (Event net)) (e : Event net) :
    hstsOf client (past ++ [e]) = match e with
      | .useHsts c use =>
        if c = client then net.hsts.useInMemory use (hstsOf client past) else hstsOf client past
      | _ => hstsOf client past := by
  rw [hstsOf, List.foldl_concat]
  rfl

structure Projected (cs : CookieStore Cookie) (past : List (Event net))
    (s : BrowserProcess net Cookie) :
    Prop where
  cookies : Tenants.Kept (s.io.ownNumber (·.cookieStore)) s.io.nextStore s.own.cookies
    (cookiesOf cs · past) []
  cache : Tenants.Kept (s.io.ownNumber (·.httpCache)) s.io.nextStore s.own.cache
    (cacheOf · past) net.cache.made
  hsts : Tenants.Kept (s.io.ownNumber (·.transportSecurityState)) s.io.nextStore s.own.hsts
    (hstsOf · past) net.hsts.made
  unused : ∀ client, s.io.urlRequestContext client = none →
    cookiesOf cs client past = [] ∧ cacheOf client past = net.cache.made ∧
      hstsOf client past = net.hsts.made

variable {past : List (Event net)} {s s' : BrowserProcess net Cookie} {client : Client}

/-- An event that writes into no store. -/
def Event.writes : Event net → Bool
  | .setCookie _ _ _ _ _ => true
  | .useCache _ _ => true
  | .useHsts _ _ => true
  | _ => false

theorem writes_nothing (cs : CookieStore Cookie) {e : Event net} (quiet : e.writes = false)
    (client : Client) (past : List (Event net)) :
    cookiesOf cs client (past ++ [e]) = cookiesOf cs client past ∧
      cacheOf client (past ++ [e]) = cacheOf client past ∧
      hstsOf client (past ++ [e]) = hstsOf client past := by
  rw [cookiesOf_concat, cacheOf_concat, hstsOf_concat]
  cases e with
  | setCookie client now url line options => cases quiet
  | useCache client use => cases quiet
  | useHsts client use => cases quiet
  | _ => exact ⟨rfl, rfl, rfl⟩

theorem quiet_projected {e : Event net} (h : Projected cs past s) (quiet : e.writes = false)
    (io : s'.io = s.io) (own : s'.own = s.own) : Projected cs (past ++ [e]) s' := by
  have same (client : Client) := writes_nothing cs quiet client past
  constructor
  · rw [io, own]
    exact Tenants.kept_due h.cookies fun client _ _ => (same client).1
  · rw [io, own]
    exact Tenants.kept_due h.cache fun client _ _ => (same client).2.1
  · rw [io, own]
    exact Tenants.kept_due h.hsts fun client _ _ => (same client).2.2
  · intro client unused
    rw [io] at unused
    rw [(same client).1, (same client).2.1, (same client).2.2]
    exact h.unused client unused

theorem ownNumber_used {io : IoState} {context : RequestContext}
    (used : io.urlRequestContext client = some context) (store : RequestContext → StoreRef) :
    io.ownNumber store client = (store context).number := by
  rw [IoState.ownNumber, used]
  rfl

theorem granted {store : RequestContext → StoreRef} {io io' : IoState} {context : RequestContext}
    {α : Type} {content : Nat → α} {due : Client → α} {empty : α}
    (h : Tenants.Kept (io.ownNumber store) io.nextStore content due empty)
    (nothing : due client = empty)
    (issued : IoState.Issued io io' context.stores) (member : store context ∈ context.stores)
    (getters : io'.urlRequestContext = io.urlRequestContext.set client context) :
    Tenants.Kept (io'.ownNumber store) io'.nextStore content due empty := by
  refine Tenants.kept_grant h nothing (fun n has => ?_) issued.next fun other different => ?_
  · have used : io'.urlRequestContext client = some context := by
      rw [getters, HashMap.set_apply, if_pos rfl]
    rw [ownNumber_used used] at has
    cases here : store context with
    | shared =>
      rw [here] at has
      cases has
    | own m =>
      rw [here] at has
      cases has
      exact issued.made _ member n here
  · simp only [IoState.ownNumber, getters, HashMap.set_apply, if_neg different]

theorem use_projected {answer : UpdateFavoritesResponse} (h : Projected cs past s)
    (taken : s.use lib client answer = some s') :
    Projected cs (past ++ [.use client answer]) s' := by
  simp only [use, Option.bind_eq_bind, Option.bind_eq_some_iff] at taken
  obtain ⟨⟨context, io⟩, asked, cookies, _, rest⟩ := taken
  cases rest
  cases used : s.io.urlRequestContext client with
  | some before =>
    rw [IoState.getURLRequestContext_again used] at asked
    cases asked
    exact quiet_projected h rfl rfl rfl
  | none =>
    have issued := IoState.getURLRequestContext_issued used asked
    obtain ⟨io₁, chosen, same⟩ := (IoState.getURLRequestContext_first used asked).chosen
    have getters : io.urlRequestContext = s.io.urlRequestContext.set client context := by
      rw [same, chosen.getters]
    obtain ⟨cookies', cache, hsts⟩ := h.unused client used
    have asks : Projected cs past { s with io, cookies } := by
      refine ⟨granted h.cookies cookies' issued ?_ getters, granted h.cache cache issued ?_ getters,
        granted h.hsts hsts issued ?_ getters, fun other unused => h.unused other ?_⟩
      · simp [RequestContext.stores]
      · simp [RequestContext.stores]
      · simp [RequestContext.stores]
      · simp only [getters, HashMap.set_apply] at unused
        split at unused
        · cases unused
        · exact unused
    exact quiet_projected asks rfl rfl rfl

/-- What is in a client's own store is what the client is due. -/
theorem owner_holds {io : IoState} {store : RequestContext → StoreRef} {context : RequestContext}
    {α : Type} {content : Nat → α} {due : Client → α} {empty : α} {n : Nat}
    (h : Tenants.Kept (io.ownNumber store) io.nextStore content due empty)
    (used : io.urlRequestContext client = some context) (own : store context = .own n) :
    content n = due client := by
  have number := ownNumber_used used store
  rw [own] at number
  exact h.holds client n number

/-- The client writes into its own store, or into the shared one, and is due what it writes. -/
theorem written_kept {io : IoState} {store : RequestContext → StoreRef} {context : RequestContext}
    {α : Type} {content content' : Nat → α} {due due' : Client → α} {empty : α}
    (h : Tenants.Kept (io.ownNumber store) io.nextStore content due empty) (write : α → α)
    (used : io.urlRequestContext client = some context)
    (writes : content' = match store context with
      | .shared => content
      | .own n => put content n (write (content n)))
    (here : due' client = write (due client))
    (same : ∀ other, other ≠ client → due' other = due other) :
    Tenants.Kept (io.ownNumber store) io.nextStore content' due' empty := by
  have number := ownNumber_used used store
  cases own : store context with
  | shared =>
    rw [own] at number writes
    rw [writes]
    apply Tenants.kept_due h
    intro other n has
    apply same
    rintro rfl
    rw [number] at has
    cases has
  | own n =>
    rw [own] at number writes
    rw [writes]
    apply Tenants.kept_write h number
    · rw [here, ← owner_holds h used own]
      exact if_pos rfl
    · exact fun m other => if_neg other
    · exact same

/-- A client that has written was using its context. -/
theorem writer_known {α : Type} {due due' : Client → α} {context : RequestContext} {other : Client}
    (used : s.io.urlRequestContext client = some context)
    (unused : s.io.urlRequestContext other = none)
    (same : ∀ l, l ≠ client → due' l = due l) : due' other = due other := by
  apply same
  rintro rfl
  rw [used] at unused
  cases unused

theorem setCookie_projected {context : RequestContext} (h : Projected cs past s)
    (has : s.contextOf client = some context) (now : Time) (url : Gurl) (line : Str)
    (options : CookieOptions) : Projected cs (past ++ [.setCookie client now url line options])
      (s.setCookie lib cs context.cookieStore now url line options) := by
  have used := contextOf_used has
  have io : (s.setCookie lib cs context.cookieStore now url line options).io = s.io :=
    (setCookie_untouched s context.cookieStore now url line options).io
  have others : (s.setCookie lib cs context.cookieStore now url line options).own.cache =
      s.own.cache ∧ (s.setCookie lib cs context.cookieStore now url line options).own.hsts =
        s.own.hsts := by
    cases context.cookieStore with
    | shared => exact ⟨rfl, rfl⟩
    | own n => exact ⟨rfl, rfl⟩
  have same (other : Client) (different : other ≠ client) :
      cookiesOf cs other (past ++ [.setCookie client now url line options]) =
        cookiesOf cs other past := by
    rw [cookiesOf_concat]
    exact if_neg (Ne.symm different)
  constructor
  · rw [io]
    apply written_kept h.cookies (fun l => (cs.setCookieWithOptions now url line options l).2) used
    · cases context.cookieStore with
      | shared => rfl
      | own n => rfl
    · rw [cookiesOf_concat]
      exact if_pos rfl
    · exact same
  · rw [io, others.1]
    exact Tenants.kept_due h.cache fun k _ _ => cacheOf_concat k past _
  · rw [io, others.2]
    exact Tenants.kept_due h.hsts fun k _ _ => hstsOf_concat k past _
  · intro other unused
    rw [io] at unused
    rw [cacheOf_concat, hstsOf_concat, writer_known used unused same]
    exact h.unused other unused

theorem useCache_projected {context : RequestContext} (h : Projected cs past s)
    (has : s.contextOf client = some context) (use : net.cache.Use) :
    Projected cs (past ++ [.useCache client use]) (s.useCache context.httpCache use) := by
  have used := contextOf_used has
  have io := (useCache_untouched s context.httpCache use).io
  have others : (s.useCache context.httpCache use).own.cookies = s.own.cookies ∧
      (s.useCache context.httpCache use).own.hsts = s.own.hsts := by
    cases context.httpCache with
    | shared => exact ⟨rfl, rfl⟩
    | own n => exact ⟨rfl, rfl⟩
  have same (other : Client) (different : other ≠ client) :
      cacheOf other (past ++ [.useCache client use]) = cacheOf other past := by
    rw [cacheOf_concat]
    exact if_neg (Ne.symm different)
  constructor
  · rw [io, others.1]
    exact Tenants.kept_due h.cookies fun k _ _ => cookiesOf_concat cs k past _
  · rw [io]
    apply written_kept h.cache (net.cache.useInMemory use) used
    · cases context.httpCache with
      | shared => rfl
      | own n => rfl
    · rw [cacheOf_concat]
      exact if_pos rfl
    · exact same
  · rw [io, others.2]
    exact Tenants.kept_due h.hsts fun k _ _ => hstsOf_concat k past _
  · intro other unused
    rw [io] at unused
    rw [cookiesOf_concat, hstsOf_concat, writer_known used unused same]
    exact h.unused other unused

theorem useHsts_projected {context : RequestContext} (h : Projected cs past s)
    (has : s.contextOf client = some context) (use : net.hsts.Use) :
    Projected cs (past ++ [.useHsts client use])
      (s.useHsts context.transportSecurityState use) := by
  have used := contextOf_used has
  have io := (useHsts_untouched s context.transportSecurityState use).io
  have others : (s.useHsts context.transportSecurityState use).own.cookies = s.own.cookies ∧
      (s.useHsts context.transportSecurityState use).own.cache = s.own.cache := by
    cases context.transportSecurityState with
    | shared => exact ⟨rfl, rfl⟩
    | own n => exact ⟨rfl, rfl⟩
  have same (other : Client) (different : other ≠ client) :
      hstsOf other (past ++ [.useHsts client use]) = hstsOf other past := by
    rw [hstsOf_concat]
    exact if_neg (Ne.symm different)
  constructor
  · rw [io, others.1]
    exact Tenants.kept_due h.cookies fun k _ _ => cookiesOf_concat cs k past _
  · rw [io, others.2]
    exact Tenants.kept_due h.cache fun k _ _ => cacheOf_concat k past _
  · rw [io]
    apply written_kept h.hsts (net.hsts.useInMemory use) used
    · cases context.transportSecurityState with
      | shared => rfl
      | own n => rfl
    · rw [hstsOf_concat]
      exact if_pos rfl
    · exact same
  · intro other unused
    rw [io] at unused
    rw [cookiesOf_concat, cacheOf_concat, writer_known used unused same]
    exact h.unused other unused

theorem clearData_own (s : BrowserProcess net Cookie) (now : Time) :
    (s.clearData cs now).own = s.own := by
  have cookies : (s.clearCookies cs now).own = s.own := by
    unfold clearCookies
    split <;> rfl
  have cache (s : BrowserProcess net Cookie) : s.clearCache.own = s.own := by
    unfold clearCache
    split <;> rfl
  have hsts (s : BrowserProcess net Cookie) : s.clearHsts.own = s.own := by
    unfold clearHsts
    split <;> rfl
  rw [clearData, hsts, cache, cookies]

theorem updateFavoritesResponse_quiet (s : BrowserProcess net Cookie)
    (update : UpdateFavoritesResponse) :
    (s.updateFavoritesResponse lib update).io = s.io ∧
      (s.updateFavoritesResponse lib update).own = s.own := by
  cases isMade : s.io.shared.cookieStore with
  | none =>
    rw [updateFavorites_aborts update isMade]
    exact ⟨rfl, rfl⟩
  | some dir =>
    rw [updateFavorites_finds update (by simp [isMade])]
    split
    · exact ⟨rfl, rfl⟩
    · exact ⟨rfl, rfl⟩

theorem act_projected {e : Event net} (h : Projected cs past s) (taken : s.act lib cs e = some s') :
    Projected cs (past ++ [e]) s' := by
  cases e with
  | shells e =>
    obtain ⟨b, _, rfl⟩ := Option.map_eq_some_iff.mp taken
    exact quiet_projected h rfl rfl rfl
  | use client answer =>
    simp only [act, Option.ite_none_right_eq_some] at taken
    exact use_projected h taken.2
  | setCookie client now url line options =>
    obtain ⟨context, has, rfl⟩ := Option.map_eq_some_iff.mp taken
    exact setCookie_projected h has now url line options
  | useCache client use =>
    obtain ⟨context, has, rfl⟩ := Option.map_eq_some_iff.mp taken
    exact useCache_projected h has use
  | useHsts client use =>
    obtain ⟨context, has, rfl⟩ := Option.map_eq_some_iff.mp taken
    exact useHsts_projected h has use
  | cacheActs use =>
    simp only [act, Option.ite_none_right_eq_some, Option.some.injEq] at taken
    obtain ⟨_, rfl⟩ := taken
    exact quiet_projected h rfl rfl rfl
  | hstsActs use =>
    simp only [act, Option.ite_none_right_eq_some, Option.some.injEq] at taken
    obtain ⟨_, rfl⟩ := taken
    exact quiet_projected h rfl rfl rfl
  | clearData now =>
    cases taken
    exact quiet_projected h rfl (clearData_untouched cs s now).io (clearData_own s now)
  | updateFavoritesResponse update =>
    cases taken
    have quiet : (s.updateFavoritesResponse lib update).io = s.io ∧
        (s.updateFavoritesResponse lib update).own = s.own := updateFavoritesResponse_quiet s update
    exact quiet_projected h rfl quiet.1 quiet.2

theorem initial_projected (cs : CookieStore Cookie) (settings : AllSettings) (dataDir : Str)
    (disk : Disk net Cookie) : Projected cs [] (initial settings dataDir disk) :=
  ⟨Tenants.kept_none (fun _ => rfl) fun _ => rfl, Tenants.kept_none (fun _ => rfl) fun _ => rfl,
    Tenants.kept_none (fun _ => rfl) fun _ => rfl, fun _ _ => ⟨rfl, rfl, rfl⟩⟩

/-- In every run and under whatever settings, a context that has a store of its own finds in
it just what it has put there itself, as if there had been no other. -/
theorem own_stores_projected {settings : AllSettings} {dataDir : Str} {disk : Disk net Cookie}
    {es : List (Event net)} {t : BrowserProcess net Cookie}
    (reached : Runs.run (step lib cs) (initial settings dataDir disk) es = some t)
    {context : RequestContext} (has : t.contextOf client = some context) :
    (∀ n, context.cookieStore = .own n → t.own.cookies n = cookiesOf cs client es) ∧
    (∀ n, context.httpCache = .own n → t.own.cache n = cacheOf client es) ∧
    (∀ n, context.transportSecurityState = .own n → t.own.hsts n = hstsOf client es) := by
  have h : Projected cs es t := Runs.invariant_history []
    (initial_projected cs settings dataDir disk)
    (fun _ _ _ _ h taken => act_projected h (step_alive taken).2) reached
  have used := contextOf_used has
  exact ⟨fun n store => owner_holds h.cookies used store,
    fun n store => owner_holds h.cache used store, fun n store => owner_holds h.hsts used store⟩

def separate : AllSettings := { state := { singleContext := false } }

/-- Two tabs are at one site, and the second of them leaves. -/
def twoTabs : List (Event plainNet) :=
  [.shells (.launchShell 0), .shells (.launchShell 0), .use (.context (.isolated 0)) ⟨[]⟩,
    .use (.context (.isolated 1)) ⟨[]⟩,
    .setCookie (.context (.isolated 0)) 1 exampleUrl "user=anna".toList {},
    .setCookie (.context (.isolated 1)) 2 exampleUrl "user=bert".toList {},
    .useHsts (.context (.isolated 1)) (.add exampleUrl.host), .shells (.close 3)]

theorem own_stores_projected_tabs :
    ∃ t context, Runs.run (step plainUrls plainStore) (initial separate "data".toList {}) twoTabs =
        some t ∧ t.contextOf (.context (.isolated 0)) = some context ∧
      context.cookieStore = .own 0 ∧ context.transportSecurityState = .own 1 ∧
      (t.own.cookies 0).map (·.value) = ["anna".toList] ∧
      plainNet.hsts.entries (t.own.hsts 1) = [] := by
  have runs : (Runs.run (step plainUrls plainStore) (initial separate "data".toList {})
      twoTabs).map (fun t => (t.contextOf (.context (.isolated 0))).map (·.stores)) =
        some (some [.own 0, .own 1, .own 2, .own 3]) := by decide +kernel
  obtain ⟨t, reached, used⟩ := Option.map_eq_some_iff.mp runs
  obtain ⟨context, has, stores⟩ := Option.map_eq_some_iff.mp used
  simp only [RequestContext.stores, List.cons.injEq] at stores
  obtain ⟨cookieStore, hstsStore, _⟩ := stores
  obtain ⟨cookies, _, hsts⟩ := own_stores_projected reached has
  have due : (cookiesOf plainStore (.context (.isolated 0)) twoTabs).map (·.value) =
      ["anna".toList] := by decide +kernel
  refine ⟨t, context, reached, has, cookieStore, hstsStore, ?_, ?_⟩
  · rw [cookies 0 cookieStore, due]
  · rw [hsts 1 hstsStore]
    decide +kernel

/-! What a run leaves on disk. -/

variable {first : AllSettings}

/-- With these events behind it, the event is the first use of a browser context, and both
settings are on. -/
def MakesCaches (first : AllSettings) (past : List (Event net)) : Event net → Prop
  | .use (.context c) _ => ¬ Used past (.context c) ∧
      (lastSettings first past).state.singleContext = true ∧
      (lastSettings first past).state.persistCache = true
  | _ => False

def CachesMade (first : AllSettings) : List (Event net) → Prop := Runs.Happened (MakesCaches first)

structure CachesKnown (first : AllSettings) (past : List (Event net))
    (s : BrowserProcess net Cookie) :
    Prop where
  hsts : s.io.shared.transportSecurityState.isSome = true ↔ CachesMade first past
  cache : s.io.shared.httpCache.isSome = true ↔ CachesMade first past

theorem io_same {e : Event net} (other : ∀ client answer, e ≠ .use client answer)
    (taken : s.act lib cs e = some s') : s'.io = s.io := by
  by_cases data : e.onData = true
  · exact (data_untouched data taken).io
  · cases e with
    | shells e =>
      obtain ⟨b, _, rfl⟩ := Option.map_eq_some_iff.mp taken
      rfl
    | use client answer => exact absurd rfl (other client answer)
    | updateFavoritesResponse update =>
      cases taken
      exact (updateFavoritesResponse_quiet s update).1
    | _ => exact absurd rfl data

theorem silent_caches {e : Event net} (h : CachesKnown first past s)
    (nothing : ¬ MakesCaches first past e)
    (io : s'.io = s.io) : CachesKnown first (past ++ [e]) s' := by
  have same : CachesMade first (past ++ [e]) ↔ CachesMade first past :=
    Runs.happened_concat.trans (or_iff_left nothing)
  constructor
  · rw [io, same]
    exact h.hsts
  · rw [io, same]
    exact h.cache

theorem makesCaches_iff {answer : UpdateFavoritesResponse} (h : Remembers lib first past s)
    (unused : s.io.urlRequestContext client = none) :
    MakesCaches first past (.use client answer) ↔
      (s.io.mayShare s.browser.settings client &&
        s.browser.settings.state.persistCache) = true := by
  have new : ¬ Used past client := by
    rw [← h.used, unused]
    simp
  cases client with
  | fetcher => simp [MakesCaches, IoState.mayShare, IoState.basePath]
  | context c => simp [MakesCaches, IoState.mayShare, IoState.basePath, h.path, ← h.settings, new]

theorem use_caches {answer : UpdateFavoritesResponse} (remembers : Remembers lib first past s)
    (h : CachesKnown first past s) (taken : s.use lib client answer = some s') :
    CachesKnown first (past ++ [.use client answer]) s' := by
  rcases use_cases taken with ⟨context, used, rfl⟩ |
    ⟨context, io, cookies, unused, firstUse, _, _, rfl⟩
  · have before : Used past client := (remembers.used client).mp (by simp [used])
    have again : ¬ MakesCaches first past (.use client answer) := by
      cases client with
      | fetcher => exact id
      | context c => exact fun makes => makes.1 before
    exact silent_caches h again rfl
  · obtain ⟨io₁, chosen, rfl⟩ := firstUse.chosen
    have makes : MakesCaches first past (.use client answer) ↔ _ :=
      makesCaches_iff remembers unused
    have made : CachesMade first (past ++ [.use client answer]) ↔ CachesMade first past ∨ _ :=
      Runs.happened_concat.trans (or_congr_right makes)
    constructor
    · rw [made, ← h.hsts, ← Bool.or_eq_true, ← chosen.transportSecurityState]
    · rw [made, ← h.cache, ← Bool.or_eq_true, ← chosen.httpCache]

theorem act_caches {e : Event net} (remembers : Remembers lib first past s)
    (h : CachesKnown first past s) (taken : s.act lib cs e = some s') :
    CachesKnown first (past ++ [e]) s' := by
  cases e with
  | use client answer =>
    simp only [act, Option.ite_none_right_eq_some] at taken
    exact use_caches remembers h taken.2
  | _ => exact silent_caches h id (io_same (by simp) taken)

/-- What an event may change on disk, by the stores that are made. -/
structure Leaves (s s' : BrowserProcess net Cookie) : Prop where
  cookies : s.io.shared.cookieStore.isSome = false → s'.cookies.persistant = s.cookies.persistant
  cache : s.io.shared.httpCache.isSome = false → s'.cacheDir = s.cacheDir
  hsts : s.io.shared.transportSecurityState.isSome = false → s'.hstsFile = s.hstsFile

theorem Leaves.same (cookies : s'.cookies.persistant = s.cookies.persistant)
    (cache : s'.cacheDir = s.cacheDir) (hsts : s'.hstsFile = s.hstsFile) : Leaves s s' :=
  ⟨fun _ => cookies, fun _ => cache, fun _ => hsts⟩

theorem use_leaves {answer : UpdateFavoritesResponse}
    (taken : s.use lib client answer = some s') : Leaves s s' := by
  simp only [use, Option.bind_eq_bind, Option.bind_eq_some_iff] at taken
  obtain ⟨⟨context, io⟩, _, cookies, constructed, rest⟩ := taken
  cases rest
  refine Leaves.same ?_ rfl rfl
  unfold constructCookieStore at constructed
  split at constructed
  · exact (CookieRuns.updateFavorites_stores constructed).1
  · cases constructed
    rfl

theorem setCookie_leaves {context : RequestContext} (made : Made s)
    (has : s.contextOf client = some context) (now : Time) (url : Gurl) (line : Str)
    (options : CookieOptions) :
    Leaves s (s.setCookie lib cs context.cookieStore now url line options) := by
  cases store : context.cookieStore with
  | shared =>
    have isMade := made.cookies client context (contextOf_used has) store
    refine ⟨fun none => ?_, fun _ => rfl, fun _ => rfl⟩
    rw [isMade] at none
    cases none
  | own n => exact Leaves.same rfl rfl rfl

theorem useCache_leaves {store : StoreRef}
    (isMade : store = .shared → s.io.shared.httpCache.isSome = true) (use : net.cache.Use) :
    Leaves s (s.useCache store use) := by
  cases store with
  | shared =>
    refine ⟨fun _ => rfl, fun none => ?_, fun _ => rfl⟩
    rw [isMade rfl] at none
    cases none
  | own n => exact Leaves.same rfl rfl rfl

theorem useHsts_leaves {store : StoreRef}
    (isMade : store = .shared → s.io.shared.transportSecurityState.isSome = true)
    (use : net.hsts.Use) : Leaves s (s.useHsts store use) := by
  cases store with
  | shared =>
    refine ⟨fun _ => rfl, fun _ => rfl, fun none => ?_⟩
    rw [isMade rfl] at none
    cases none
  | own n => exact Leaves.same rfl rfl rfl

theorem Leaves.trans {s₁ : BrowserProcess net Cookie} (h : Leaves s s₁) (h' : Leaves s₁ s')
    (io : s₁.io = s.io) : Leaves s s' := by
  refine ⟨fun none => ?_, fun none => ?_, fun none => ?_⟩
  · rw [h'.cookies (by rw [io]; exact none), h.cookies none]
  · rw [h'.cache (by rw [io]; exact none), h.cache none]
  · rw [h'.hsts (by rw [io]; exact none), h.hsts none]

theorem clearCookies_leaves (s : BrowserProcess net Cookie) (now : Time) :
    Leaves s (s.clearCookies cs now) := by
  unfold clearCookies
  split
  · next isMade =>
    refine ⟨fun none => ?_, fun _ => rfl, fun _ => rfl⟩
    rw [isMade] at none
    cases none
  · exact Leaves.same rfl rfl rfl

theorem clearCache_leaves (s : BrowserProcess net Cookie) : Leaves s s.clearCache := by
  unfold clearCache
  split
  · next isOpen =>
    refine ⟨fun _ => rfl, fun none => ?_, fun _ => rfl⟩
    rw [none] at isOpen
    cases isOpen
  · exact Leaves.same rfl rfl rfl

theorem clearHsts_leaves (s : BrowserProcess net Cookie) : Leaves s s.clearHsts := by
  unfold clearHsts
  split
  · next isMade =>
    refine ⟨fun _ => rfl, fun _ => rfl, fun none => ?_⟩
    rw [isMade] at none
    cases none
  · exact Leaves.same rfl rfl rfl

theorem clearData_leaves (s : BrowserProcess net Cookie) (now : Time) :
    Leaves s (s.clearData cs now) := by
  have first : Untouched s (s.clearCookies cs now) := clearCookies_untouched s now
  have cached := (clearCookies_leaves s now).trans (clearCache_leaves _) first.io
  exact cached.trans (clearHsts_leaves _) (first.trans (clearCache_untouched _)).io

theorem updateFavoritesResponse_leaves (s : BrowserProcess net Cookie)
    (update : UpdateFavoritesResponse) :
    Leaves s (s.updateFavoritesResponse lib update) := by
  cases isMade : s.io.shared.cookieStore with
  | none =>
    rw [updateFavorites_aborts update isMade]
    exact Leaves.same rfl rfl rfl
  | some dir =>
    rw [updateFavorites_finds update (by simp [isMade])]
    split
    · exact Leaves.same rfl rfl rfl
    · exact Leaves.same rfl rfl rfl

theorem act_leaves {e : Event net} (made : Made s) (taken : s.act lib cs e = some s') :
    Leaves s s' := by
  cases e with
  | shells e =>
    obtain ⟨b, _, rfl⟩ := Option.map_eq_some_iff.mp taken
    exact Leaves.same rfl rfl rfl
  | use client answer =>
    simp only [act, Option.ite_none_right_eq_some] at taken
    exact use_leaves taken.2
  | setCookie client now url line options =>
    obtain ⟨context, has, rfl⟩ := Option.map_eq_some_iff.mp taken
    exact setCookie_leaves made has now url line options
  | useCache client use =>
    obtain ⟨context, has, rfl⟩ := Option.map_eq_some_iff.mp taken
    exact useCache_leaves (made.caches client context (contextOf_used has)) use
  | useHsts client use =>
    obtain ⟨context, has, rfl⟩ := Option.map_eq_some_iff.mp taken
    exact useHsts_leaves (made.hsts client context (contextOf_used has)) use
  | cacheActs use =>
    simp only [act, Option.ite_none_right_eq_some, Option.some.injEq] at taken
    obtain ⟨isMade, rfl⟩ := taken
    exact useCache_leaves (fun _ => isMade) use
  | hstsActs use =>
    simp only [act, Option.ite_none_right_eq_some, Option.some.injEq] at taken
    obtain ⟨isMade, rfl⟩ := taken
    exact useHsts_leaves (fun _ => isMade) use
  | clearData now =>
    cases taken
    exact clearData_leaves s now
  | updateFavoritesResponse update =>
    cases taken
    exact updateFavoritesResponse_leaves s update

structure Untraced (lib : UrlLibrary) (first : AllSettings) (disk : Disk net Cookie)
    (past : List (Event net))
    (s : BrowserProcess net Cookie) : Prop where
  remembers : Remembers lib first past s
  made : Made s
  caches : CachesKnown first past s
  cookies : ¬ CookieStoreMade first past → s.cookies.persistant = disk.cookies
  files : ¬ CachesMade first past → s.cacheDir = disk.cacheDir ∧ s.hstsFile = disk.hstsFile

theorem step_untraced {disk : Disk net Cookie} {e : Event net} (h : Untraced lib first disk past s)
    (taken : step lib cs s e = some s') : Untraced lib first disk (past ++ [e]) s' := by
  have acted := (step_alive taken).2
  have leaves := act_leaves h.made acted
  refine ⟨step_remembers h.remembers taken, act_made h.made acted,
    act_caches h.remembers h.caches acted, fun unmade => ?_, fun unmade => ?_⟩
  · have before : ¬ CookieStoreMade first past := fun made => unmade (made_concat.mpr (.inl made))
    rw [leaves.cookies (Bool.eq_false_iff.mpr fun made => before (h.remembers.made.mp made))]
    exact h.cookies before
  · have before : ¬ CachesMade first past := fun made =>
      unmade (Runs.happened_concat.mpr (.inl made))
    rw [leaves.cache (Bool.eq_false_iff.mpr fun made => before (h.caches.cache.mp made)),
      leaves.hsts (Bool.eq_false_iff.mpr fun made => before (h.caches.hsts.mp made))]
    exact h.files before

theorem run_untraced {dataDir : Str} {disk : Disk net Cookie} {es : List (Event net)}
    (reached : Runs.run (step lib cs) (initial first dataDir disk) es = some s) :
    Untraced lib first disk es s := by
  have start : Untraced lib first disk [] (initial first dataDir disk) := by
    have here : Runs.run (step lib cs) (initial first dataDir disk) [] =
        some (initial first dataDir disk) := rfl
    refine ⟨run_remembers here, ?_, ⟨?_, ?_⟩, fun _ => rfl, fun _ => ⟨rfl, rfl⟩⟩
    · exact ⟨nofun, nofun, nofun, .inr rfl, .inr rfl, .inr rfl⟩
    · exact iff_of_false nofun Runs.happened_nil
    · exact iff_of_false nofun Runs.happened_nil
  exact Runs.invariant_history [] start (fun _ _ _ _ h taken => step_untraced h taken) reached

/-- The browser is started on what the last process left, used and closed. -/
structure Session (net : NetLibrary) where
  settings : AllSettings
  events : List (Event net)

def onDisk (s : BrowserProcess net Cookie) : Disk net Cookie :=
  ⟨s.cookies.persistant, s.cacheDir, s.hstsFile⟩

def session (lib : UrlLibrary) (cs : CookieStore Cookie) (dataDir : Str) (disk : Disk net Cookie)
    (x : Session net) : Option (Disk net Cookie) :=
  (Runs.run (step lib cs) (initial x.settings dataDir disk) x.events).map onDisk

/-- Over any number of sessions, the cookies on disk are those of the beginning unless some
session first uses a browser context with `single_context` and `allow_persistant_cookies` on, and
the cache and the HSTS file are unless one does so with `single_context` and `persist_cache` on. -/
theorem sessions_leave_no_trace {dataDir : Str} {disk disk' : Disk net Cookie}
    {sessions : List (Session net)}
    (ran : Runs.run (session lib cs dataDir) disk sessions = some disk') :
    ((∀ x ∈ sessions, ¬ CookieStoreMade x.settings x.events) → disk'.cookies = disk.cookies) ∧
    ((∀ x ∈ sessions, ¬ CachesMade x.settings x.events) →
      disk'.cacheDir = disk.cacheDir ∧ disk'.hstsFile = disk.hstsFile) := by
  have one {before after : Disk net Cookie} {x : Session net}
      (closed : session lib cs dataDir before x = some after) :
      (¬ CookieStoreMade x.settings x.events → after.cookies = before.cookies) ∧
        (¬ CachesMade x.settings x.events →
          after.cacheDir = before.cacheDir ∧ after.hstsFile = before.hstsFile) := by
    obtain ⟨s, reached, rfl⟩ := Option.map_eq_some_iff.mp closed
    have h := run_untraced reached
    exact ⟨h.cookies, h.files⟩
  constructor
  · intro none
    have along : Runs.Along (session lib cs dataDir)
        (fun _ x _ => ¬ CookieStoreMade x.settings x.events) disk sessions :=
      Runs.along_of_events disk sessions none
    refine Runs.invariant_along (I := fun d => d.cookies = disk.cookies) rfl ?_ along ran
    intro before x after same closed unmade
    exact ((one closed).1 unmade).trans same
  · intro none
    have along : Runs.Along (session lib cs dataDir)
        (fun _ x _ => ¬ CachesMade x.settings x.events) disk sessions :=
      Runs.along_of_events disk sessions none
    refine Runs.invariant_along
      (I := fun d => d.cacheDir = disk.cacheDir ∧ d.hstsFile = disk.hstsFile) ⟨rfl, rfl⟩
      ?_ along ran
    intro before x after same closed unmade
    obtain ⟨cache, hsts⟩ := (one closed).2 unmade
    exact ⟨cache.trans same.1, hsts.trans same.2⟩

/-- Tabs are kept apart in one session; in the next they share their stores in memory. -/
def twoSessions : List (Session plainNet) :=
  [⟨separate, twoTabs⟩,
    ⟨{ state := { persistCache := false, allowPersistantCookies := false } },
      [.shells (.launchShell 0), .use (.context .global) ⟨[]⟩,
        .setCookie (.context .global) 3 exampleUrl "user=carl".toList {}, .clearData 4]⟩]

theorem lastSettings_same {es : List (Event net)}
    (same : ∀ e ∈ es, ∀ settings, e ≠ .shells (.updateGlobalSettings settings)) :
    lastSettings first es = first := by
  induction es using List.reverseRecOn with
  | nil => rfl
  | append_singleton past e ih =>
    have before := ih fun e member => same e (List.mem_append_left _ member)
    have last := same e (List.mem_append_right _ List.mem_cons_self)
    rw [lastSettings_concat, before]
    split
    · next settings => exact absurd rfl (last settings)
    · rfl

/-- A session that keeps to its first settings. -/
theorem unmade_by_settings {es : List (Event net)}
    (same : ∀ e ∈ es, ∀ settings, e ≠ .shells (.updateGlobalSettings settings)) :
    ((first.state.singleContext && first.state.allowPersistantCookies) = false →
      ¬ CookieStoreMade first es) ∧
    ((first.state.singleContext && first.state.persistCache) = false → ¬ CachesMade first es) := by
  have kept {before after : List (Event net)} {e : Event net} (split : es = before ++ e :: after) :
      lastSettings first before = first :=
    lastSettings_same fun e member => same e (by rw [split]; exact List.mem_append_left _ member)
  constructor
  · rintro off ⟨before, e, after, split, makes⟩
    cases e with
    | use client answer =>
      cases client with
      | context c =>
        obtain ⟨_, single, allow⟩ := makes
        rw [kept split] at single allow
        rw [single, allow] at off
        cases off
      | fetcher => exact makes
    | _ => exact makes
  · rintro off ⟨before, e, after, split, makes⟩
    cases e with
    | use client answer =>
      cases client with
      | context c =>
        obtain ⟨_, single, persist⟩ := makes
        rw [kept split] at single persist
        rw [single, persist] at off
        cases off
      | fetcher => exact makes
    | _ => exact makes

theorem sessions_leave_no_trace_separate :
    ∃ disk', Runs.run (session plainUrls plainStore "data".toList)
        { cacheDir := ["http://a.com/".toList], hstsFile := ["a.com".toList] } twoSessions =
          some disk' ∧
      disk'.cookies = [] ∧ disk'.cacheDir = ["http://a.com/".toList] ∧
        disk'.hstsFile = ["a.com".toList] := by
  have runs : (Runs.run (session plainUrls plainStore "data".toList)
      { cacheDir := ["http://a.com/".toList], hstsFile := ["a.com".toList] }
        twoSessions).isSome = true := by decide +kernel
  obtain ⟨disk', ran⟩ := Option.isSome_iff_exists.mp runs
  have steady : ∀ x ∈ twoSessions, ∀ e ∈ x.events, ∀ settings,
      e ≠ .shells (.updateGlobalSettings settings) := by simp [twoSessions, twoTabs]
  have off : ∀ x ∈ twoSessions,
      (x.settings.state.singleContext && x.settings.state.allowPersistantCookies) = false ∧
        (x.settings.state.singleContext && x.settings.state.persistCache) = false := by decide
  obtain ⟨cookies, files⟩ := sessions_leave_no_trace ran
  refine ⟨disk', ran, cookies fun x member => ?_, files fun x member => ?_⟩
  · exact (unmade_by_settings (steady x member)).1 (off x member).1
  · exact (unmade_by_settings (steady x member)).2 (off x member).2

end BrowserProcess

end Seaturtle
